/-
  HALTING: a prelude that quits, and an interpreter that will not do anything any more.

  The modules of a prelude are loaded in order.  Either all of them are loaded and none quits
  (`Loads`), or one quits and those after it are not even looked for (`LoadsUpToQuit`).  In the
  latter case the interpreter is halted: whatever it is used for, it answers that it has quit and
  leaves everything as it is (`Running.serve_halted`).  Otherwise no use of it ever halts it, and
  an answer that it has quit is the work of a `(quit)` form which that very use has evaluated.

  Structure:
    1. The prelude.  What the loop over the modules comes to is one of the two relations
       (`loads_of_loadPrelude`), and each of them says what the loop comes to.
    2. What an interpreter is used for (`Use`), one use after the other (`Running`), and what
       becomes of that when it is halted.
    3. An interpreter that is not halted: it stays so, its state stays well formed, and whoever is
       told that it has quit has evaluated a `(quit)` form (`Running.quit_caused`).

  All of this is about traced runs, for `LoadsUpToQuit` has to say what has been evaluated up to
  the module that quits.
-/
import SmallScheme.Proofs.Bundled
import SmallScheme.Proofs.Dialogue
import SmallScheme.Proofs.Interleaving
import SmallScheme.Proofs.LoadedText
import SmallScheme.Proofs.Quit

namespace SmallScheme

/-- A function of what a run comes to. -/
theorem Run.map_apply {α β : Type} (f : α → β) (x : Run α) (s : State) :
    (f <$> x) s = match x s with
      | .ok a t => .ok (f a) t
      | .error fault t => .error fault t := by
  rw [map_eq_pure_bind, bind_apply]
  cases x s <;> rfl

/-- What is done with the value of a run makes no difference to the state. -/
theorem Run.stateAfter_map {α β : Type} (f : α → β) (x : Run α) (s : State) :
    (f <$> x).stateAfter s = x.stateAfter s := by
  rw [stateAfter, stateAfter, map_apply]
  cases x s <;> rfl

namespace Interpreter

variable {i : Interpreter} {name : String} {names : List String} {s t u : State} {v : Value}
variable {ms ms' : List Moment}

/-! ## The prelude -/

/-- A module of the prelude is loaded, with all that is evaluated meanwhile. -/
def loadingOf (i : Interpreter) (name : String) : Traced Value :=
  Host.guardDepth (Host.load i.loader (Trace.watcher i) name)

/-- Modules are loaded in order, each from the state that the one before has left, and none of
    them quits. -/
inductive Loads (i : Interpreter) : List String → State → List Moment → State → Prop where
  | nil {s : State} : Loads i [] s [] s
  | cons {name : String} {names : List String} {s t u : State} {v : Value} {ms ms' : List Moment}
    (hname : i.loadingOf name s = (ms, .ok v t)) (hv : v.quits = false)
    (h : Loads i names t ms' u) : Loads i (name :: names) s (ms ++ ms') u

/-- One of the modules quits, those before it are loaded and do not quit, and that is all. -/
def LoadsUpToQuit (i : Interpreter) (names : List String) (s : State) (ms : List Moment)
    (t : State) : Prop :=
  ∃ before name after u ms₁ ms₂, names = before ++ name :: after ∧ i.Loads before s ms₁ u ∧
    i.loadingOf name u = (ms₂, .ok .quit t) ∧ ms = ms₁ ++ ms₂

/-- The first module decides whether the others are loaded. -/
theorem loadPrelude_cons (i : Interpreter) (name : String) (names : List String) :
    Trace.loadPrelude i (name :: names)
      = i.loadingOf name >>= fun v => if v.quits then pure true else Trace.loadPrelude i names := by
  rw [Trace.loadPrelude, Host.loadPrelude]
  congr 1
  funext v
  cases v <;> rfl

/-- The first module does not quit, and a later one does. -/
theorem LoadsUpToQuit.cons (hname : i.loadingOf name s = (ms, .ok v t)) (hv : v.quits = false)
    (h : i.LoadsUpToQuit names t ms' u) : i.LoadsUpToQuit (name :: names) s (ms ++ ms') u := by
  obtain ⟨before, last, after, w, ms₁, ms₂, rfl, hbefore, hlast, rfl⟩ := h
  refine ⟨name :: before, last, after, w, ms ++ ms₁, ms₂, rfl, .cons hname hv hbefore, hlast, ?_⟩
  rw [List.append_assoc]

/-- What has been loaded, has been loaded to the end or up to a module that quits. -/
theorem loads_of_loadPrelude {halted : Bool}
    (h : Trace.loadPrelude i names s = (ms, .ok halted t)) :
    if halted then i.LoadsUpToQuit names s ms t else i.Loads names s ms t := by
  -- on the modules: the first quits, or the others are loaded from where it has come to
  induction names generalizing s ms with
  | nil =>
    cases h
    exact .nil
  | cons name names ih =>
    rw [loadPrelude_cons] at h
    obtain ⟨ms₁, v, u, ms₂, hname, hrest, rfl⟩ := Noted.of_bind_ok h
    cases hv : v.quits with
    | true =>
      have hquit : v = .quit := by
        cases v <;> first | rfl | cases hv
      subst hquit
      cases hrest
      exact ⟨[], name, names, s, [], ms₁, rfl, .nil, hname, List.append_nil ms₁⟩
    | false =>
      rw [hv, if_neg Bool.false_ne_true] at hrest
      have hloads := ih hrest
      cases halted with
      | true => exact LoadsUpToQuit.cons hname hv hloads
      | false => exact .cons hname hv hloads

/-- Modules none of which quits, and then others. -/
theorem Loads.loadPrelude_append (h : i.Loads names s ms t) (more : List String) :
    Trace.loadPrelude i (names ++ more) s
      = (ms ++ (Trace.loadPrelude i more t).1, (Trace.loadPrelude i more t).2) := by
  induction h with
  | nil => rfl
  | cons hname hv _ ih =>
    rw [List.cons_append, loadPrelude_cons, Noted.bind_ok hname, hv, if_neg Bool.false_ne_true, ih,
      List.append_assoc]

/-- Modules none of which quits are loaded to the end. -/
theorem Loads.loadPrelude (h : i.Loads names s ms t) :
    Trace.loadPrelude i names s = (ms, .ok false t) := by
  have happend := h.loadPrelude_append []
  rw [List.append_nil] at happend
  rw [happend]
  exact congrArg (·, _) (List.append_nil ms)

/-- Modules one of which quits are loaded up to it. -/
theorem LoadsUpToQuit.loadPrelude (h : i.LoadsUpToQuit names s ms t) :
    Trace.loadPrelude i names s = (ms, .ok true t) := by
  obtain ⟨before, name, after, u, ms₁, ms₂, rfl, hbefore, hname, rfl⟩ := h
  rw [hbefore.loadPrelude_append, loadPrelude_cons, Noted.bind_ok hname]
  exact congrArg (fun ms => (ms₁ ++ ms, _)) (List.append_nil ms₂)

/-- A started interpreter is a fresh one that has loaded its prelude. -/
theorem loadPrelude_of_start {loader : Loader} {room : Nat}
    (h : start loader room names s = .ok i t) :
    i = ⟨loader, room, i.halted⟩ ∧ Trace.loadPrelude ⟨loader, room, false⟩ names s
      = ((Trace.start loader room names s).1, .ok i.halted t) := by
  have hstart : Trace.start loader room names s
      = ((Trace.start loader room names s).1, .ok i t) := by
    rw [← h, ← Trace.start_run]
    rfl
  obtain ⟨ms₁, halted, u, ms₂, hload, hi, hms⟩ := Noted.of_bind_ok hstart
  cases hi
  rw [List.append_nil] at hms
  rw [hms]
  exact ⟨rfl, hload⟩

/-- A prelude that quits is evaluated up to a `(quit)` form, and everything stays as it was then. -/
theorem quit_last_of_start {loader : Loader} {room : Nat} (h : start loader room names s = .ok i t)
    (hi : i.halted = true) (hs : s.WellFormed) :
    ∃ before m, (Trace.start loader room names s).1 = before ++ [m] ∧ m.Quits ∧
      (∀ m' ∈ before, ¬ m'.Quits) ∧ t = { m.state with loading := s.loading } := by
  -- a start leaves the loading set as it was, whatever the prelude does
  have hloading : t.loading = s.loading := by
    have hrestores := start_restores loader room names s
    rwa [Run.stateAfter_ok h] at hrestores
  obtain ⟨-, hends⟩ := Trace.start_sound loader room names s hs
  have hresult : (Trace.start loader room names s).2 = .ok i t := by
    rw [← h, ← Trace.start_run]
    rfl
  rw [hresult] at hends
  generalize (Trace.start loader room names s).1 = ms at hends
  cases hends with
  | value _ hgood =>
    rw [hi] at hgood
    cases hgood
  | @quit before m _ loading hbefore hm =>
    -- what the quit moment knows of the files in progress is forgotten on the way out
    have hsame : loading = s.loading := hloading
    rw [hsame]
    exact ⟨before, m, rfl, hm, hbefore, rfl⟩

/-! ## What an interpreter is used for -/

/-- What an interpreter is used for: to evaluate a text, to load a file, or for a dialogue. -/
inductive Use where
  | request (asked : Request)
  | dialogue (prompting : Bool) (input : String)

/-- What comes of it: a value, or the status in which the dialogue ends. -/
inductive Answer where
  | value (v : Value)
  | status (code : Nat)

/-- The run of an interpreter that is used for something. -/
def Use.run (use : Use) (i : Interpreter) : Run Answer :=
  match use with
  | .request asked => Answer.value <$> asked.run i
  | .dialogue prompting input => (fun _ => Answer.status 0) <$> Repl.run i prompting input

/-- The answer of one that has quit. -/
def Use.refusal : Use → Answer
  | .request _ => .value .quit
  | .dialogue _ _ => .status 0

/-- All that is evaluated when an interpreter does what it is asked for. -/
def Request.moments (asked : Request) (i : Interpreter) (s : State) : List Moment :=
  match asked with
  | .eval source => (Trace.eval i source s).1
  | .load path => (Trace.loadFile i path s).1

/-- An interpreter, and the state that it works on. -/
structure Running where
  interpreter : Interpreter
  state : State

/-- An interpreter is used for something.  Its answer, or the fault that it ends in, and what there
    is afterwards. -/
def Running.serve (r : Running) (use : Use) : Except Fault Answer × Running :=
  match use.run r.interpreter r.state with
  | .ok answer t => (.ok answer, { r with state := t })
  | .error fault t => (.error fault, { r with state := t })

/-- The state afterwards is that of the run. -/
theorem Running.serve_snd (r : Running) (use : Use) :
    (r.serve use).2 = { r with state := (use.run r.interpreter).stateAfter r.state } := by
  rw [serve, Run.stateAfter]
  cases use.run r.interpreter r.state <;> rfl

/-- A halted interpreter has quit, whatever it is used for, and nothing changes. -/
theorem Use.run_halted (hi : i.halted = true) (use : Use) (s : State) :
    use.run i s = .ok use.refusal s := by
  cases use with
  | request asked =>
    have hquit : asked.run i = pure .quit := by
      cases asked with
      | eval source => exact if_pos hi
      | load path => exact if_pos hi
    rw [run, hquit]
    rfl
  | dialogue prompting input =>
    have hnone : Repl.run i prompting input = pure () := if_pos hi
    rw [run, hnone]
    rfl

/-- So it is with one use after the other. -/
theorem Running.serve_halted {r : Running} (hr : r.interpreter.halted = true) (uses : List Use) :
    serveInTurn Running.serve r uses = (uses.map fun use => .ok use.refusal, r) := by
  induction uses with
  | nil => rfl
  | cons use uses ih =>
    have hserve : r.serve use = (.ok use.refusal, r) := by
      rw [serve, Use.run_halted hr]
    rw [serveInTurn_cons, hserve, ih]
    rfl

/-! ## An interpreter that is not halted -/

/-- A dialogue leaves a well-formed state, however it ends. -/
theorem Repl.stateAfter_run_wellFormed (hs : s.WellFormed) (i : Interpreter) (prompting : Bool)
    (input : String) : ((Repl.run i prompting input).stateAfter s).WellFormed := by
  cases hi : i.halted with
  | true =>
    have hnone : Repl.run i prompting input = pure () := if_pos hi
    rw [hnone]
    exact hs
  | false =>
    -- the dialogue is held after the first prompt, which writes and does nothing else
    have hdialogue : Repl.run i prompting input s = Repl.feedAll i prompting ""
        ((Text.lines input.toList).map String.ofList) (Repl.invited prompting Repl.prompt s) := by
      rw [Repl.run, hi, if_neg Bool.false_ne_true, Repl.invite_bind]
    have hlasting : Repl.Lasting (Repl.run i prompting input s) := by
      rw [hdialogue]
      exact (Repl.feedAll_dialogue i prompting "" _ _).lasting
        (Repl.invited_wellFormed hs prompting Repl.prompt)
    unfold Run.stateAfter
    cases hr : Repl.run i prompting input s with
    | ok _ t =>
      rw [hr] at hlasting
      exact hlasting
    | error fault t =>
      rw [hr] at hlasting
      exact hlasting.2

/-- So does any other use. -/
theorem Use.stateAfter_wellFormed (hs : s.WellFormed) (use : Use) (i : Interpreter) :
    ((use.run i).stateAfter s).WellFormed := by
  cases use with
  | dialogue prompting input =>
    rw [run, Run.stateAfter_map]
    exact Repl.stateAfter_run_wellFormed hs i prompting input
  | request asked =>
    rw [run, Run.stateAfter_map]
    cases asked with
    | eval source => exact (Interpreter.eval_upright hs i source).stateAfter
    | load path => exact (Interpreter.loadFile_upright hs i path).stateAfter

/-- Of one use after the other, none changes the interpreter, and all keep the state well formed. -/
theorem Running.serve_keeps (r : Running) (uses : List Use) :
    (serveInTurn Running.serve r uses).2.interpreter = r.interpreter ∧
      (r.state.WellFormed → (serveInTurn Running.serve r uses).2.state.WellFormed) := by
  induction uses generalizing r with
  | nil => exact ⟨rfl, id⟩
  | cons use uses ih =>
    rw [serveInTurn_cons, serve_snd]
    obtain ⟨hsame, hwell⟩ := ih { r with state := (use.run r.interpreter).stateAfter r.state }
    exact ⟨hsame, fun hr => hwell (use.stateAfter_wellFormed hr r.interpreter)⟩

/-- Where an interpreter is not halted and its answer is that it has quit, it has evaluated a
    `(quit)` form meanwhile. -/
theorem Running.quit_caused {r : Running} (hi : r.interpreter.halted = false)
    (hs : r.state.WellFormed) {asked : Request}
    (h : (r.serve (.request asked)).1 = .ok (.value .quit)) :
    ∃ m ∈ asked.moments r.interpreter r.state, m.Quits := by
  -- the answer says that the run came to a quit
  have hrun : ∃ t, asked.run r.interpreter r.state = .ok .quit t := by
    rw [serve, Use.run, Run.map_apply] at h
    cases hr : asked.run r.interpreter r.state with
    | error fault t =>
      rw [hr] at h
      cases h
    | ok v t =>
      rw [hr] at h
      cases h
      exact ⟨t, rfl⟩
  obtain ⟨t, ht⟩ := hrun
  cases asked with
  | eval source =>
    have hlaw := Traced.SoundValue.quitLaw (Trace.eval_sound hi source) hs
    rw [Trace.eval_run] at hlaw
    exact hlaw.caused _ _ ht rfl
  | load path =>
    have hlaw := Traced.SoundValue.quitLaw (Trace.loadFile_sound hi path) hs
    rw [Trace.loadFile_run] at hlaw
    exact hlaw.caused _ _ ht rfl

/-- A prelude that quits halts the interpreter for good, and nothing else does.

    A started interpreter is halted just if one of its modules has quit; then those before it have
    been loaded, that one up to its `(quit)` form, and no other.  Otherwise all have been loaded.  A
    halted interpreter may be used for whatever there is, in whatever order and state: it answers
    each time that it has quit, and changes nothing.  One that is not halted stays so, whatever it
    answers, and whenever it answers that it has quit, a `(quit)` form has been evaluated again. -/
theorem prelude_halts_for_good (loader : Loader) (room : Nat) (names : List String) (s t : State)
    (i : Interpreter) (h : start loader room names s = .ok i t) :
    let fresh : Interpreter := ⟨loader, room, false⟩
    let moments := (Trace.start loader room names s).1
    (i.halted = true ↔ fresh.LoadsUpToQuit names s moments t) ∧
    (i.halted = false ↔ fresh.Loads names s moments t) ∧
    (i.halted = true → s.WellFormed → ∃ before m, moments = before ++ [m] ∧ m.Quits ∧
      (∀ m' ∈ before, ¬ m'.Quits) ∧ t = { m.state with loading := s.loading }) ∧
    (i.halted = true → ∀ (u : State) (uses : List Use), serveInTurn Running.serve ⟨i, u⟩ uses
      = (uses.map fun use => .ok use.refusal, ⟨i, u⟩)) ∧
    (i.halted = false → ∀ (u : State) (uses : List Use),
      let after := (serveInTurn Running.serve ⟨i, u⟩ uses).2
      after.interpreter = fresh ∧
      (u.WellFormed → after.state.WellFormed ∧
        ∀ asked, (after.serve (.request asked)).1 = .ok (.value .quit) →
          ∃ m ∈ asked.moments after.interpreter after.state, m.Quits)) := by
  intro fresh moments
  obtain ⟨hi, hload⟩ := loadPrelude_of_start h
  -- the prelude either came to its end or was cut off by a quit, and `halted` says which
  have hspec := loads_of_loadPrelude hload
  refine ⟨⟨fun hhalted => ?_, fun hquits => ?_⟩, ⟨fun hhalted => ?_, fun hloads => ?_⟩, ?_, ?_, ?_⟩
  · rw [hhalted] at hspec
    exact hspec
  · have hsame := hload.symm.trans hquits.loadPrelude
    exact (EStateM.Result.ok.inj (congrArg Prod.snd hsame)).1
  · rw [hhalted] at hspec
    exact hspec
  · have hsame := hload.symm.trans hloads.loadPrelude
    exact (EStateM.Result.ok.inj (congrArg Prod.snd hsame)).1
  · intro hhalted hs
    exact quit_last_of_start h hhalted hs
  · exact fun hhalted u uses => Running.serve_halted hhalted uses
  · intro hhalted u uses after
    obtain ⟨hsame, hwell⟩ := Running.serve_keeps ⟨i, u⟩ uses
    have hfresh : after.interpreter = fresh := by
      rw [hsame, hi, hhalted]
    refine ⟨hfresh, fun hu => ⟨hwell hu, fun asked hquit => ?_⟩⟩
    exact Running.quit_caused (by rw [hfresh]) (hwell hu) hquit

/-- The text is read as the two forms that are in it. -/
theorem ofText_defineAndQuit (room : Nat) : Script.ofText (room + 1) "(define x 1) (quit)"
    = ⟨[.ofItems [.symbol "define", .symbol "x", .int 1], .ofItems [.symbol "quit"]], none,
        ⟨[], none⟩⟩ := by
  have hfirst : (Tokens.ofText "(define x 1) (quit)".toList).datum (room + 1)
      = (.ok (some (.ofItems [.symbol "define", .symbol "x", .int 1])),
        Tokens.ofText " (quit)".toList) := rfl
  have hsecond : (Tokens.ofText " (quit)".toList).datum (room + 1)
      = (.ok (some (.ofItems [.symbol "quit"])), ⟨[], none⟩) := rfl
  rw [Script.ofText, Script.ofTokens_eq, hfirst]
  dsimp only
  rw [Script.ofTokens_eq, hsecond]
  dsimp only
  rw [Script.ofTokens_eq]
  rfl

/-- The first module of the prelude makes a definition and quits; there is no second one, and
    nobody notices.  Then neither a text that cannot be read nor a file that is not there is
    anything but one more time to have quit. -/
theorem prelude_halts_for_good_missing :
    let loader := Loader.holding "(define x 1) (quit)"
    ∃ (i : Interpreter) (t : State), start loader 100 ["m", "absent"] .initial = .ok i t ∧
      t.store.get? "x" = some (.int 1) ∧
      (⟨loader, 100, false⟩ : Interpreter).LoadsUpToQuit ["m", "absent"] .initial
        (Trace.start loader 100 ["m", "absent"] .initial).1 t ∧
      serveInTurn Running.serve ⟨i, t⟩ [.request (.eval ")"), .request (.load ⟨.root, ["absent"]⟩),
          .dialogue true "(define x 2)"]
        = ([.ok (.value .quit), .ok (.value .quit), .ok (.status 0)], ⟨i, t⟩) := by
  intro loader
  have htext : loader.text (loader.absolute ⟨.root, ["m.scm"]⟩) = .ok "(define x 1) (quit)" := by
    have hplain : Text.IsPlain "(define x 1) (quit)".toList := Text.isPlain_of_chars rfl rfl
    exact Loader.text_holding hplain
  let fresh : Interpreter := ⟨loader, 100, false⟩
  let t : State := ⟨⟨[("x", .int 1)]⟩, "",
    #[.trying ⟨.root, ["m.scm"]⟩ "m", .loading ⟨.root, ["m.scm"]⟩, .defined "x"], [], 2⟩
  have hresolve : loader.resolve "m" State.initial = .ok (some ⟨.root, ["m.scm"]⟩)
      { State.initial with events := #[.trying ⟨.root, ["m.scm"]⟩ "m"] } := rfl
  -- the first module is evaluated up to its `(quit)`
  have hload : loader.load fresh.evaluator "m" .initial = .ok .quit t := by
    have hroom : fresh.evaluator.room - Room.moduleText = 94 + 1 := rfl
    rw [Loader.load_of_resolve hresolve, Loader.loadPath_of_free _ rfl List.not_mem_nil,
      Loader.readFile_of_text htext, hroom, ofText_defineAndQuit]
    rfl
  have hstart : start loader 100 ["m", "absent"] .initial
      = .ok { fresh with halted := true } t := by
    rw [start, Run.bind_apply, loadPrelude, Run.bind_apply, Run.guardDepth_apply, hload]
    rfl
  obtain ⟨hquits, -, -, hhalted, -⟩ := prelude_halts_for_good loader 100 _ _ t _ hstart
  exact ⟨_, t, hstart, rfl, hquits.mp rfl, hhalted rfl t _⟩

end Interpreter

end SmallScheme
