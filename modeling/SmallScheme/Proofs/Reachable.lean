/-
  REACHABLE STATES: what texts and files make of the empty store.

  A state is reachable if it comes of the empty store by starting interpreters and by having them
  evaluate texts and load files, in any order, whatever way each of these runs ends.  Interpreters
  may share the store; what else a run finds in its state — what has been displayed, what is on
  record — may be anything.  Reachable states are well formed (`Reachable.wellFormed`), and so is
  everything at every moment of a run from a reachable state.

  The argument is one of preservation.  Making an interpreter, evaluating a text and loading a file
  are each upright (`Run.Upright`): from a well-formed state they go through well-formed moments
  to a well-formed state, with a result or an expected fault.  The induction over a history of such
  runs is then a matter of putting them together.

  What makes the runs upright is the soundness of the evaluator, for traced runs; here it is only
  read as a statement about runs.
-/
import SmallScheme.Proofs.SoundTrace

namespace SmallScheme

/-- The state in which a run ends, with a value or in a fault. -/
def Run.stateAfter {α : Type} (x : Run α) (s : State) : State :=
  match x s with
  | .ok _ t => t
  | .error _ t => t

/-- The states that runs from the empty store come to. -/
inductive Reachable : State → Prop where
  | initial : Reachable .initial
  | start {s : State} (loader : Loader) (room : Nat) (prelude : List String) :
    Reachable s → Reachable ((Interpreter.start loader room prelude).stateAfter s)
  | eval {s : State} (i : Interpreter) (source : String) :
    Reachable s → Reachable ((i.eval source).stateAfter s)
  | loadFile {s : State} (i : Interpreter) (path : Path) :
    Reachable s → Reachable ((i.loadFile path).stateAfter s)
  /-- The next run has the same store before it. -/
  | again {s t : State} : t.store = s.store → Reachable s → Reachable t

/-- What is right with a run: all is well formed at each of its moments and in the end, and if it
    ends in a fault, it is an expected one. -/
structure Run.Upright {α : Type} (good : α → Prop) (ms : List Moment)
    (r : EStateM.Result Fault State α) : Prop where
  moments : ∀ m ∈ ms, m.WellFormed
  value : ∀ a t, r = .ok a t → good a ∧ t.WellFormed
  fault : ∀ fault t, r = .error fault t → fault.Expected ∧ t.WellFormed

/-- The value is well formed, or the quit signal. -/
def Value.IsResult (v : Value) : Prop := v = .quit ∨ v.WellFormed

section Upright

variable {α : Type} {quits good good' : α → Prop} {s : State}

/-- A sound trace is that of an upright run. -/
theorem Traced.Sound.upright {x : Traced α} (h : Traced.Sound quits good x) (hs : s.WellFormed)
    (hgood : ∀ a, quits a ∨ good a → good' a) : Run.Upright good' (x s).1 (x.run s) := by
  show Run.Upright good' (x s).1 (x s).2
  rcases hxs : x s with ⟨ms, r⟩
  obtain ⟨hms, hends⟩ := h.ends hs hxs
  cases hends with
  | value _ ha ht =>
    refine ⟨hms, fun b u hr => ?_, fun fault u hr => (nomatch hr)⟩
    cases hr
    exact ⟨hgood _ (Or.inr ha), ht⟩
  | @quit before m a loading _ _ ha =>
    -- the state in the end is that of the last moment, but for what is being loaded
    have hm : m.WellFormed := hms m (List.mem_append_right before List.mem_cons_self)
    refine ⟨hms, fun b u hr => ?_, fun fault u hr => (nomatch hr)⟩
    cases hr
    exact ⟨hgood _ (Or.inl ha), hm.state⟩
  | fault _ hfault ht =>
    refine ⟨hms, fun b u hr => (nomatch hr), fun fault u hr => ?_⟩
    cases hr
    exact ⟨hfault, ht⟩

/-- An upright run leaves a well-formed state. -/
theorem Run.Upright.stateAfter {x : Run α} {ms : List Moment} (h : Run.Upright good ms (x s)) :
    (x.stateAfter s).WellFormed := by
  unfold Run.stateAfter
  split
  · next hr => exact (h.value _ _ hr).2
  · next hr => exact (h.fault _ _ hr).2

/-- A halted interpreter does nothing. -/
theorem Run.Upright.halted (hs : s.WellFormed) :
    Run.Upright Value.IsResult [] ((pure .quit : Run Value) s) := by
  refine ⟨fun _ hm => (nomatch hm), fun a t hr => ?_, fun fault t hr => (nomatch hr)⟩
  cases hr
  exact ⟨Or.inl rfl, hs⟩

end Upright

section Interpreter

variable {s : State} (hs : s.WellFormed)
include hs

/-- Evaluating one expression, which is what a run does at each of its moments. -/
theorem Eval.evaluate_upright (loader? : Option Loader) (steps room below : Nat) {expr : Value}
    {env : Env} (hexpr : expr.WellFormed) (henv : env.WellFormed) :
    Run.Upright Value.IsResult (Trace.evaluate loader? steps room below expr env s).1
      (Eval.evaluate loader? steps room below expr env s) := by
  rw [← Trace.evaluate_run]
  exact (Trace.evaluate_sound loader? steps room below hexpr henv).upright hs fun _ hv => hv

/-- Making an interpreter is upright. -/
theorem Interpreter.start_upright (loader : Loader) (room : Nat) (prelude : List String) :
    Run.Upright (fun _ => True) (Trace.start loader room prelude s).1
      (Interpreter.start loader room prelude s) := by
  rw [← Trace.start_run]
  exact (Trace.start_sound loader room prelude).upright hs fun _ _ => trivial

/-- So is evaluating a text, -/
theorem Interpreter.eval_upright (i : Interpreter) (source : String) :
    Run.Upright Value.IsResult (Trace.eval i source s).1 (i.eval source s) := by
  cases hi : i.halted with
  | true =>
    rw [Trace.eval, Host.eval, Interpreter.eval, if_pos hi, if_pos hi]
    exact Run.Upright.halted hs
  | false =>
    rw [← Trace.eval_run]
    exact (Trace.eval_sound hi source).upright hs fun _ hv => hv

/-- and so is loading a file. -/
theorem Interpreter.loadFile_upright (i : Interpreter) (path : Path) :
    Run.Upright Value.IsResult (Trace.loadFile i path s).1 (i.loadFile path s) := by
  cases hi : i.halted with
  | true =>
    rw [Trace.loadFile, Host.loadFile, Interpreter.loadFile, if_pos hi, if_pos hi]
    exact Run.Upright.halted hs
  | false =>
    rw [← Trace.loadFile_run]
    exact (Trace.loadFile_sound hi path).upright hs fun _ hv => hv

end Interpreter

/-- Reachable states are well formed: every run keeps them so, whatever way it ends. -/
theorem Reachable.wellFormed {s : State} (h : Reachable s) : s.WellFormed := by
  induction h with
  | initial =>
    intro name v hmem
    cases hmem
  | start loader room prelude _ ih =>
    exact (Interpreter.start_upright ih loader room prelude).stateAfter
  | eval i source _ ih => exact (Interpreter.eval_upright ih i source).stateAfter
  | loadFile i path _ ih => exact (Interpreter.loadFile_upright ih i path).stateAfter
  | again hstore _ ih =>
    intro name v hmem
    rw [hstore] at hmem
    exact ih name v hmem

end SmallScheme
