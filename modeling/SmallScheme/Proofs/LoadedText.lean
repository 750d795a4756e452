/-
  LOADING a file is evaluating its text.

  There are two loops that read and evaluate: the loader's, for a file, and the interpreter's, for
  a text.  They differ in four ways, and none of them is to be seen from inside a program:

  * the loader's loop has less room, for it lies deeper.  What no limit stops is the same in more
    room (`evaluate_mono`);
  * the interpreter's loop guards each form against going too deep, and the loader's the whole
    file.  Where no limit stops the run the guard does nothing;
  * the interpreter keeps the value of the last form, and the loader does not (`Value.loaded`);
  * while the loader's loop runs, the file is being loaded.  That is noticed only by who loads the
    file again (`Run.Unnoticed`).

  Structure:
    1. Evaluation in more room, step by step and then as a whole.
    2. The two loops: the loader's is within the interpreter's (`runForms_within`,
       `runScript_within`), so where no limit stops the first, the second does the same.
    3. The agreement of `loadPath` with `eval`, where the file is free.  It goes by way of a
       state in which the file is being loaded besides.
    4. Requiring the file.  To resolve a module only puts events on record (`OnlyRecords`), and the
       form adds nothing to the load but the depth that it stands in.
    5. The two put together, and a file of one definition to which they apply.
-/
import SmallScheme.Proofs.TailCall
import SmallScheme.Proofs.Trace
import SmallScheme.Proofs.Unnoticed

namespace SmallScheme

/-! ## Evaluation in more room -/

namespace Eval

variable {loader? : Option Loader} {steps : Nat}

/-- Steps in more room come to the same, if the evaluations of their subexpressions do. -/
theorem follow_mono {room big : Nat} (hroom : room ≤ big)
    (hsub : ∀ small small', small ≤ room → small ≤ small' → ∀ expr env, Run.Within
      (evaluate loader? steps small 0 expr env) (evaluate loader? steps small' 0 expr env))
    (fuel used : Nat) (body? : Option Nat) (expr : Value) (env : Env) :
    Run.Within (follow (stepIn loader? steps room) fuel used body? expr env)
      (follow (stepIn loader? steps big) fuel used body? expr env) := by
  induction fuel generalizing used body? expr env with
  | zero => exact Run.Within.refl _
  | succ fuel ih =>
    rw [follow_succ, follow_succ]
    let ev := (stepping loader? steps room).deeper used
    let ev' := (stepping loader? steps big).deeper used
    have hle : ev.room ≤ ev'.room := Nat.sub_le_sub_right (Nat.succ_le_succ hroom) used
    by_cases h0 : ev.room = 0
    · have hstop : stepIn loader? steps room used expr env = throw .tooDeep := by
        rw [stepIn, step, if_pos h0]
      rw [hstop]
      exact Run.Within.of_limit rfl _
    · have hstep : stepIn loader? steps room used expr env
          = (Way.ofStep loader? ev).eval expr env := Way.step_eq_eval loader? ev env h0 expr
      have hstep' : stepIn loader? steps big used expr env
          = (Way.ofStep loader? ev').eval expr env :=
        Way.step_eq_eval loader? ev' env (by omega) expr
      rw [hstep, hstep']
      have hrun : ∀ below expr env,
          Run.Within (ev.run below expr env) (ev'.run below expr env) := by
        intro below expr env
        rw [stepping_run, stepping_run]
        exact hsub _ _ (Nat.sub_le _ _) (Nat.sub_le_sub_right hroom _) expr env
      -- both sides go the same way, so it is enough to compare what the way is made of
      refine Way.eval_within hle ?_ ?_ ?_ ?_ ?_ expr
      · exact fun below expr env _ => hrun below expr env
      · exact fun name => require_within ⟨hle, fun below expr env _ => hrun below expr env⟩ name
      · exact fun expr => ih _ _ expr env
      · intro body inner
        cases body? with
        | none => exact ih _ _ body inner
        | some size => exact ih _ _ body inner
      · exact fun v => Run.Within.refl _

/-- More room does not change what an evaluation does. -/
theorem evaluate_mono {room room' : Nat} (h : room ≤ room') (expr : Value) (env : Env) :
    Run.Within (evaluate loader? steps room 0 expr env)
      (evaluate loader? steps room' 0 expr env) := by
  induction room using Nat.strongRecOn generalizing room' expr env with
  | ind room ih =>
    cases room with
    | zero => exact Run.Within.of_limit rfl _
    | succ room =>
      obtain ⟨big, rfl⟩ : ∃ big, room' = big + 1 := ⟨room' - 1, by omega⟩
      refine follow_mono (Nat.le_of_succ_le_succ h) (fun small small' hsmall hle expr env => ?_)
        steps 0 none expr env
      exact ih small (Nat.lt_succ_of_le hsmall) hle expr env

end Eval

/-! ## The two loops -/

/-- What loading a file comes to that would be evaluated to the value. -/
def Value.loaded (v : Value) : Value := if v.quits then .quit else .unspecified

/-- What no limit stops while a path is being loaded, no limit stops. -/
theorem Run.Settled.of_whileLoading {α : Type} {x : Run α} {path : Path} {s : State}
    (h : Run.Settled (Run.whileLoading path x s)) :
    Run.Settled (x { s with loading := path :: s.loading }) := by
  unfold Run.whileLoading at h
  cases hx : x { s with loading := path :: s.loading } with
  | ok a t => trivial
  | error fault t =>
    rw [hx] at h
    exact h

/-- What no limit stops, no limit stops at its beginning. -/
theorem Run.Settled.of_bind {α β : Type} {x : Run α} {k : α → Run β} {s : State}
    (h : Run.Settled ((x >>= k) s)) : Run.Settled (x s) := by
  rw [bind_apply] at h
  -- a fault of the first run is the fault of both
  cases hx : x s with
  | ok a t => trivial
  | error fault t =>
    rw [hx] at h
    exact h

/-- Where no limit stops a run, guarding it makes no difference. -/
theorem Run.Within.guardDepth {α : Type} {x y : Run α} (h : Run.Within x y) :
    Run.Within x (Run.guardDepth y) := by
  intro s hs
  rw [guardDepth_apply, h s hs]
  cases hx : x s with
  | ok a t => rfl
  | error fault t =>
    rw [hx] at hs
    cases fault with
    | tooDeep => cases hs
    | _ => rfl

namespace Interpreter

variable (i : Interpreter)

/-- The loader's loop over forms is within the interpreter's. -/
theorem runForms_within (last : Value) (forms : List Value) (hlast : last.quits = false) :
    Run.Within (Loader.runForms i.evaluator forms)
      (i.evalForms last forms >>= fun v => pure v.quits) := by
  induction forms generalizing last with
  | nil =>
    rw [evalForms, pure_bind, hlast]
    exact Run.Within.refl _
  | cons form forms ih =>
    rw [Loader.runForms, evalForms]
    simp only [bind_assoc]
    refine (Run.Within.refl _).bind fun form => ?_
    -- a form of a file gets less room than one of a text
    have hform : Run.Within (i.evaluator.run Room.moduleForm form .empty) (i.evalForm form) := by
      show Run.Within (Eval.evaluate _ _ i.room Room.moduleForm form .empty) _
      rw [Eval.evaluate_below]
      exact Eval.evaluate_mono (Nat.sub_le _ _) form .empty
    refine hform.guardDepth.bind fun v => ?_
    cases v with
    | quit => exact Run.Within.refl _
    | _ => exact ih _ rfl

/-- How a script ends after its forms: the signal of a form that has quit, what stopped the
    reader, or nothing. -/
def ending (fault? : Option Fault) (quits : Bool) : Run Value :=
  if quits then pure .quit
  else
    match fault? with
    | some fault => throw fault
    | none => pure .unspecified

/-- The interpreter's loop over a text, without the value of the last form. -/
theorem eval_loaded (hi : i.halted = false) (source : String) :
    (i.eval source >>= fun v => pure v.loaded)
      = (i.evalForms .unspecified (Script.ofText i.room source).forms >>= fun v => pure v.quits)
        >>= ending (Script.ofText i.room source).fault? := by
  rw [eval, if_neg (by rw [hi]; exact Bool.false_ne_true)]
  simp only [bind_assoc]
  congr 1
  funext v
  cases v with
  | quit => rfl
  | _ => cases (Script.ofText i.room source).fault? <;> rfl

/-- The loader's loop over a text is within the interpreter's. -/
theorem runScript_within (hi : i.halted = false) (source : String) :
    Run.Within (Loader.runScript i.evaluator (.ofText (i.room - Room.moduleText) source))
      (i.eval source >>= fun v => pure v.loaded) := by
  have hopens : (Script.ofText (i.room - Room.moduleText) source).Opens
      (Script.ofText i.room source) := Script.ofTokens_opens (Nat.sub_le _ _) _
  rw [i.eval_loaded hi]
  show Run.Within (Loader.runForms i.evaluator _ >>= ending _) _
  have hforms := i.runForms_within .unspecified
    (Script.ofText (i.room - Room.moduleText) source).forms rfl
  rcases hopens with heq | ⟨hfault, more, hmore⟩
  · rw [heq]
    exact hforms.bind fun quits => Run.Within.refl _
  -- unless the forms before quit, a limit stops the loader before the others begin
  · refine (hforms.bind fun quits => Run.Within.refl _).trans ?_
    rw [hmore, i.evalForms_append rfl, hfault]
    simp only [bind_assoc]
    refine (Run.Within.refl _).bind fun v => ?_
    rw [pure_bind]
    cases hv : v.quits with
    | true => exact Run.Within.refl _
    | false => exact Run.Within.of_limit rfl _

end Interpreter

/-! ## The agreement -/

/-- Evaluating a text came to the first result, and loading its file to the second: with the same
    store and output, and in the same fault, or with what a file is loaded to. -/
def Run.LoadAgrees : EStateM.Result Fault State Value → EStateM.Result Fault State Value → Prop
  | .ok v s, .ok w t => w = v.loaded ∧ t.store = s.store ∧ t.out = s.out
  | .error fault s, .error fault' t => fault' = fault ∧ t.store = s.store ∧ t.out = s.out
  | _, _ => False

/-- What is loaded has no value that could be lost again. -/
theorem Value.loaded_loaded (v : Value) : v.loaded.loaded = v.loaded := by
  cases v <;> rfl

/-- What a file is loaded to, a form that requires it is evaluated to. -/
theorem Run.LoadAgrees.loaded {r : EStateM.Result Fault State Value} {x : Run Value} {s : State}
    (h : Run.LoadAgrees r (x s)) : Run.LoadAgrees r ((x >>= fun v => pure v.loaded) s) := by
  rw [bind_apply]
  cases hx : x s with
  | error fault t =>
    rw [hx] at h
    exact h
  | ok w t =>
    rw [hx] at h
    cases r with
    | error fault u => exact h
    | ok v u =>
      obtain ⟨rfl, hstore, hout⟩ := h
      exact ⟨v.loaded_loaded, hstore, hout⟩

section Agreement

variable {i : Interpreter} (hi : i.halted = false) {path : Path} (hnull : path.hasNull = false)
  {source : String} (htext : i.loader.text (i.loader.absolute path) = .ok source) {s : State}
  (hfree : i.loader.absolute path ∉ s.loading)
  (hquiet : ∀ scene ∈ ((Host.eval i source : Staged Value) s.loading s).1,
    i.loader.absolute path ∉ scene.inProgress)
include hi hnull htext hfree hquiet

/-- Loading the file, with whatever is on record, agrees with evaluating its text. -/
theorem Interpreter.loadPath_agrees (events : Array Event)
    (hsettled : Run.Settled (i.loader.loadPath i.evaluator path { s with events := events })) :
    Run.LoadAgrees (i.eval source s)
      (i.loader.loadPath i.evaluator path { s with events := events }) := by
  let file := i.loader.absolute path
  let t : State := { s with
    events := events.push (.loading file)
    loading := file :: s.loading }
  -- evaluating the text does the same while the file is being loaded
  have hbesides : s.Besides file t := ⟨rfl, rfl, rfl, [], s.loading, rfl, rfl⟩
  have hcode : ∀ form ∈ (Script.ofText i.room source).forms, Scope.everything.Code form :=
    fun form _ => Scope.everything_code form
  have hunnoticed := (Host.relates_unnoticed (some i.loader) file).eval hcode s.loading s t hbesides
    hquiet
  have hdoes := (Staged.relates_does (some i.loader)).eval hcode
  rw [hdoes.run_eq] at hunnoticed
  obtain ⟨outcome, s', t', hs, ht, h', -⟩ := hunnoticed
  have hload := Loader.loadPath_of_free (s := { s with events := events }) i.evaluator hnull hfree
  rw [Loader.readFile_of_text htext] at hload
  rw [hload] at hsettled ⊢
  -- the loop over the file, where no limit stops it, is the loop over the text
  have hscript : Loader.runScript i.evaluator (.ofText (i.room - Room.moduleText) source) t
      = Run.result (outcome.map Value.loaded) t' := by
    rw [← i.runScript_within hi source t (Run.Settled.of_whileLoading hsettled), Run.bind_apply,
      ht]
    cases outcome <;> rfl
  rw [hs, Run.whileLoading_result hscript]
  cases outcome with
  | ok v => exact ⟨rfl, h'.store, h'.out⟩
  | error fault => exact ⟨rfl, h'.store, h'.out⟩

end Agreement

/-! ## Requiring the file -/

namespace Run

variable {α β : Type}

/-- The run puts events on record and does nothing else to the state. -/
def OnlyRecords (x : Run α) : Prop :=
  ∀ s, ∃ outcome events, x s = result outcome { s with events := events }

/-- A run that does nothing to the state records nothing. -/
theorem OnlyRecords.still {x : Run α} (outcome : Except Fault α)
    (h : ∀ s, x s = result outcome s) : OnlyRecords x :=
  fun s => ⟨outcome, s.events, h s⟩

/-- Runs that only record do so one after the other. -/
theorem OnlyRecords.bind {x : Run α} {k : α → Run β} (hx : OnlyRecords x)
    (hk : ∀ a, OnlyRecords (k a)) : OnlyRecords (x >>= k) := by
  intro s
  obtain ⟨outcome, events, hs⟩ := hx s
  rw [bind_apply, hs]
  cases outcome with
  | ok a => exact hk a _
  | error fault => exact ⟨.error fault, events, rfl⟩

end Run

namespace Loader

open Run (OnlyRecords)

/-- To check a file does nothing to the state. -/
theorem checkFile_onlyRecords (loader : Loader) (path : Path) :
    OnlyRecords (loader.checkFile path) := by
  unfold checkFile
  split
  · exact .still (.ok _) fun _ => rfl
  · exact .still (.error _) fun _ => rfl

/-- To search the roots is to record what is tried there. -/
theorem search_onlyRecords (loader : Loader) (name : String) (path : Path) (roots : List Path) :
    OnlyRecords (loader.search name path roots) := by
  induction roots with
  | nil => exact .still (.ok none) fun _ => rfl
  | cons root roots ih =>
    have hrecord : OnlyRecords (Run.record (.trying (root.join path) name)) :=
      fun s => ⟨.ok (), _, rfl⟩
    refine hrecord.bind fun _ => (checkFile_onlyRecords loader _).bind fun answer => ?_
    split
    · exact .still (.ok _) fun _ => rfl
    · exact ih

/-- To resolve a module does no more than that. -/
theorem resolve_onlyRecords (loader : Loader) (name : String) :
    OnlyRecords (loader.resolve name) := by
  unfold resolve
  cases modulePath name with
  | error fault => exact .still (.error fault) fun _ => rfl
  | ok path =>
    dsimp only
    split
    · refine (checkFile_onlyRecords loader _).bind fun answer => ?_
      split <;> exact .still (.ok _) fun _ => rfl
    · exact search_onlyRecords loader name _ _

/-- A module is loaded from where it was found. -/
theorem load_of_resolve {loader : Loader} {name : String} {path : Path} {s t : State}
    (h : loader.resolve name s = .ok (some path) t) (ev : Evaluator) :
    loader.load ev name s = loader.loadPath ev path t := by
  rw [load, Run.bind_apply, h]

end Loader

/-- A `(require "name")` form loads that module, whatever its environment. -/
theorem Eval.evaluate_require (loader : Loader) (steps room : Nat) (origin : Origin)
    (name : String) (env : Env) :
    evaluate (some loader) (steps + 1) (room + 1) 0 (.list origin [.symbol "require", .str name])
        env
      = loader.load ((stepping (some loader) (steps + 1) room).deeper 0) name >>= fun v =>
        pure v.loaded := by
  show follow (stepIn (some loader) (steps + 1) room) (steps + 1) 0 none _ env = _
  rw [follow_succ]
  show (unlessQuit (loader.load _ name) _ >>= carryOn _ _ _ _ _) = _
  rw [unlessQuit, bind_assoc]
  congr 1
  funext v
  cases v <;> rfl

/-- The form needs more room than the load alone, and does the same. -/
theorem Eval.evaluate_require_within (loader : Loader) (steps room below : Nat) (origin : Origin)
    (name : String) (env : Env) :
    Run.Within
      (evaluate (some loader) steps room below (.list origin [.symbol "require", .str name]) env)
      (loader.load (within (some loader) steps room) name >>= fun v => pure v.loaded) := by
  rw [evaluate_below]
  obtain ⟨small, hsmall⟩ : ∃ small, small = room - below := ⟨_, rfl⟩
  rw [← hsmall]
  cases small with
  | zero => exact Run.Within.of_limit rfl _
  | succ small =>
    cases steps with
    | zero => exact Run.Within.of_limit rfl _
    | succ steps =>
      rw [evaluate_require]
      -- the module is loaded in less room than there is outside of the form
      refine Run.Within.bind (Loader.load_within ⟨?_, ?_⟩ loader name) fun v => Run.Within.refl _
      · show small + 1 ≤ room
        omega
      · intro below' expr env _
        show Run.Within (((stepping (some loader) (steps + 1) small).deeper 0).run below' expr env)
          (evaluate (some loader) (steps + 1) room below' expr env)
        rw [stepping_run, evaluate_below room]
        exact evaluate_mono (by omega) expr env

/-- Loading a file agrees with evaluating its text.  Let the file that a path leads to have a
    text, let it not be being loaded, and let nothing load it while an interpreter that is not
    halted evaluates that text.  Then, unless a limit stops it, the interpreter loads the file with
    the same effect on the store and the output, and ends in the same fault, or with the quit
    signal where the evaluation does, or else with no particular value.  So does a form that
    requires a module of which this is the file, in whatever environment. -/
theorem load_agrees_with_eval (i : Interpreter) (hi : i.halted = false) (path : Path)
    (hnull : path.hasNull = false) (source : String)
    (htext : i.loader.text (i.loader.absolute path) = .ok source) (s : State)
    (hfree : i.loader.absolute path ∉ s.loading)
    (hquiet : ∀ scene ∈ ((Host.eval i source : Staged Value) s.loading s).1,
      i.loader.absolute path ∉ scene.inProgress) :
    (Run.Settled (i.loader.loadPath i.evaluator path s) →
      Run.LoadAgrees (i.eval source s) (i.loadFile path s)) ∧
    ∀ name below origin env t, i.loader.resolve name s = .ok (some path) t →
      Run.Settled
        (i.evaluator.run below (.list origin [.symbol "require", .str name]) env s) →
      Run.LoadAgrees (i.eval source s)
        (i.evaluator.run below (.list origin [.symbol "require", .str name]) env s) := by
  refine ⟨fun hsettled => ?_, fun name below origin env t hresolve hsettled => ?_⟩
  · have hload := Interpreter.loadPath_agrees hi hnull htext hfree hquiet s.events hsettled
    rw [Interpreter.loadFile, if_neg (by rw [hi]; exact Bool.false_ne_true),
      (Run.Within.refl _).guardDepth s hsettled]
    exact hload
  · -- the form is the loading of the path, with more on record before it
    obtain ⟨outcome, events, hrecords⟩ := i.loader.resolve_onlyRecords name s
    rw [hresolve] at hrecords
    obtain rfl : t = { s with events := events } := by
      cases outcome <;> cases hrecords
      rfl
    -- the path is resolved first, and what that leaves behind is a record only
    have hload := Loader.load_of_resolve hresolve i.evaluator
    have hrequire := Eval.evaluate_require_within i.loader Interpreter.maxSteps i.room below origin
      name env s hsettled
    change (i.loader.load i.evaluator name >>= fun v => pure v.loaded) s
      = i.evaluator.run below (.list origin [.symbol "require", .str name]) env s at hrequire
    rw [← hrequire] at hsettled ⊢
    have hsettled' := Run.Settled.of_bind hsettled
    rw [hload] at hsettled'
    refine Run.LoadAgrees.loaded ?_
    rw [hload]
    exact Interpreter.loadPath_agrees hi hnull htext hfree hquiet events hsettled'

/-- A loader for a single file `/m.scm`, in which is `(define x 1)`. -/
def Loader.withDefinition : Loader :=
  ⟨[⟨.root, []⟩], ⟨[], [(["m.scm"], [40, 100, 101, 102, 105, 110, 101, 32, 120, 32, 49, 41])]⟩, []⟩

/-- The text is read as one definition, in whatever room. -/
theorem Script.ofText_definition (room : Nat) : Script.ofText (room + 1) "(define x 1)"
    = ⟨[.list .unknown [.symbol "define", .symbol "x", .int 1]], none, ⟨[], none⟩⟩ := by
  have hdatum : (Tokens.ofText "(define x 1)".toList).datum (room + 1)
      = (.ok (some (.list .unknown [.symbol "define", .symbol "x", .int 1])), ⟨[], none⟩) := rfl
  rw [Script.ofText, Script.ofTokens_eq, hdatum]
  dsimp only
  rw [Script.ofTokens_eq]
  rfl

/-- Loading `/m.scm`, and `(require "m")`, agree with evaluating `(define x 1)`. -/
theorem load_agrees_with_eval_definition :
    Run.LoadAgrees
      (Interpreter.eval ⟨.withDefinition, 100, false⟩ "(define x 1)" State.initial)
      (Interpreter.loadFile ⟨.withDefinition, 100, false⟩ ⟨.root, ["m.scm"]⟩ State.initial) ∧
    Run.LoadAgrees
      (Interpreter.eval ⟨.withDefinition, 100, false⟩ "(define x 1)" State.initial)
      ((Interpreter.evaluator ⟨.withDefinition, 100, false⟩).run 0
        (.list .unknown [.symbol "require", .str "m"]) .empty State.initial) := by
  have hscenes : ((Host.eval ⟨.withDefinition, 100, false⟩ "(define x 1)" : Staged Value) []
      State.initial).1.map Scene.inProgress = [[], []] := by
    unfold Host.eval
    rw [Script.ofText_definition 99]
    rfl
  have hquiet : ∀ scene ∈ ((Host.eval ⟨.withDefinition, 100, false⟩ "(define x 1)" :
      Staged Value) [] State.initial).1, (⟨.root, ["m.scm"]⟩ : Path) ∉ scene.inProgress := by
    intro scene hscene
    have hmem : scene.inProgress ∈ [[], []] := by
      rw [← hscenes]
      exact List.mem_map_of_mem hscene
    have hnil : scene.inProgress = [] := by simpa using hmem
    rw [hnil]
    exact List.not_mem_nil
  -- nothing is loaded while the definition is evaluated, so the file is noticed by nobody
  have htext : Loader.withDefinition.text (Loader.withDefinition.absolute ⟨.root, ["m.scm"]⟩)
      = .ok "(define x 1)" := rfl
  obtain ⟨hload, hrequire⟩ := load_agrees_with_eval ⟨.withDefinition, 100, false⟩ rfl
    ⟨.root, ["m.scm"]⟩ rfl "(define x 1)" htext State.initial List.not_mem_nil hquiet
  have hresolve : Loader.withDefinition.resolve "m" State.initial
      = .ok (some ⟨.root, ["m.scm"]⟩)
        { State.initial with events := #[.trying ⟨.root, ["m.scm"]⟩ "m"] } := rfl
  refine ⟨hload ?_, hrequire "m" 0 .unknown .empty _ hresolve ?_⟩
  · rw [Loader.loadPath_of_free _ rfl List.not_mem_nil, Loader.readFile_of_text htext]
    have hroom : (Interpreter.evaluator ⟨.withDefinition, 100, false⟩).room - Room.moduleText
        = 94 + 1 := rfl
    rw [hroom, Script.ofText_definition]
    trivial
  · change Run.Settled (Eval.evaluate (some .withDefinition) ((2 ^ 62 - 1) + 1) (99 + 1) 0 _ _ _)
    rw [Eval.evaluate_require, Run.bind_apply, Loader.load_of_resolve hresolve,
      Loader.loadPath_of_free _ rfl List.not_mem_nil, Loader.readFile_of_text htext]
    have hroom : ((Eval.stepping (some .withDefinition) ((2 ^ 62 - 1) + 1) 99).deeper 0).room
        - Room.moduleText = 94 + 1 := rfl
    rw [hroom, Script.ofText_definition]
    trivial

end SmallScheme
