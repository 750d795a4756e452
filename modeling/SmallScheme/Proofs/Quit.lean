/-
  QUITTING ends everything, and nothing else looks like it.

  When a program evaluates a `(quit)` form, that form is the last thing that is evaluated: no
  operand, no clause, no form and no module comes after it.  The whole run comes to the quit
  signal, with the store and the output as they were at that moment.  A run comes to the quit
  signal in no other way; and the signal is never taken for a value, for nothing that is stored,
  bound or put into a list is the signal or has it inside.

  The law (`Run.QuitLaw`) is about the moments of a run and its result: there is a `(quit)` form
  among the moments just if the result is the signal, and then it is the last one.  It is proved
  of traced runs along with their soundness, for it needs that the signal is no value: a form that
  gets a value goes on, and one that gets the signal does not.

  What is said about stores, frames and lists is a part of being well formed, so it holds at every
  moment of a run from a reachable state.
-/
import SmallScheme.Proofs.Reachable

namespace SmallScheme

/-- Nothing in the store is the quit signal or has it inside. -/
def Store.QuitFree (store : Store) : Prop :=
  ∀ name v, (name, v) ∈ store.entries → .quit ∉ v.parts

/-- The quit signal is nowhere at that moment. -/
structure Moment.QuitFree (m : Moment) : Prop where
  expr : .quit ∉ m.expr.parts
  env : .quit ∉ m.env.parts
  store : m.state.store.QuitFree

/-- What quitting means for a run that came to `r` after the moments `ms`.  `quits` are the values
    that stand for the quit signal, and `clean` are those without it. -/
structure Run.QuitLaw {α : Type} (quits clean : α → Prop) (ms : List Moment)
    (r : EStateM.Result Fault State α) : Prop where
  /-- After a `(quit)` form nothing is evaluated.  The run comes to the quit signal, and of the
      state nothing has changed since but which files are being loaded. -/
  final : ∀ before m after, ms = before ++ m :: after → m.Quits →
    after = [] ∧ ∃ a loading, quits a ∧ r = .ok a { m.state with loading := loading }
  /-- A run that comes to the quit signal has evaluated a `(quit)` form. -/
  caused : ∀ a t, r = .ok a t → quits a → ∃ m ∈ ms, m.Quits
  /-- The signal is nowhere at any moment, -/
  moments : ∀ m ∈ ms, m.QuitFree
  /-- nor in the store in the end, -/
  store : ∀ t, (∃ a, r = .ok a t) ∨ (∃ fault, r = .error fault t) → t.store.QuitFree
  /-- nor in any other value. -/
  value : ∀ a t, r = .ok a t → quits a ∨ clean a

/-- In a well-formed state the store is free of the signal. -/
theorem State.WellFormed.quitFree {s : State} (h : s.WellFormed) : s.store.QuitFree :=
  fun name v hmem => Value.quit_notMem_parts v (h name v hmem).1

/-- At a well-formed moment all that is at hand is free of it. -/
theorem Moment.WellFormed.quitFree {m : Moment} (h : m.WellFormed) : m.QuitFree :=
  ⟨Value.quit_notMem_parts m.expr h.expr, Env.quit_notMem_parts m.env h.env, h.state.quitFree⟩

/-- Only one keyword is the one of quitting. -/
theorem Keyword.name_of_quit {name : String} (h : Keyword.ofName? name = some .quit) :
    name = "quit" := by
  unfold Keyword.ofName? at h
  split at h <;> cases h
  rfl

/-- Of the special forms only that of the keyword is a quit, and only without operands. -/
theorem Form.special?_of_quit {keyword : Keyword} {vs : List Value}
    (h : Form.special? keyword vs = .ok .quit) : keyword = .quit ∧ vs = [] := by
  unfold Form.special? at h
  split at h
  case h_18 => exact ⟨rfl, rfl⟩
  case h_3 | h_5 | h_6 => split at h <;> cases h
  all_goals cases h

/-- So only one head is. -/
theorem Value.keyword?_of_quit {head : Value} (h : Value.keyword? [head] = some .quit) :
    head = .symbol "quit" := by
  cases head with
  | symbol name => rw [Keyword.name_of_quit h]
  | _ => cases h

/-- A `(quit)` form is the list of that one symbol. -/
theorem Moment.quits_iff {m : Moment} :
    m.Quits ↔ ∃ origin, m.expr = .list origin [.symbol "quit"] := by
  unfold Moment.Quits
  constructor
  · intro h
    unfold Form.ofExpr? at h
    split at h
    case h_4 name =>
      split at h <;> cases h
    case h_6 origin head operands hexpr =>
      split at h
      · next keyword hkeyword =>
        -- the only form that is a quit is the keyword without operands
        obtain ⟨rfl, rfl⟩ := Form.special?_of_quit h
        rw [Value.keyword?_of_quit hkeyword] at hexpr
        exact ⟨origin, hexpr⟩
      · cases h
    all_goals cases h
  · rintro ⟨origin, h⟩
    rw [h]
    rfl

section Law

variable {α : Type} {quits good clean : α → Prop}

/-- A `(quit)` form among moments of which only the last is one, is that last one. -/
theorem Moment.last_quits {before ms after : List Moment} {m last : Moment}
    (hms : ∀ m ∈ ms, ¬ m.Quits) (h : ms ++ [last] = before ++ m :: after) (hm : m.Quits) :
    after = [] ∧ last = m := by
  -- on the moments before the last, with what is cut off before `m`
  induction ms generalizing before with
  | nil =>
    cases before with
    | nil =>
      cases h
      exact ⟨rfl, rfl⟩
    | cons b before =>
      have hnil : [] = before ++ m :: after := (List.cons.inj h).2
      cases before <;> cases hnil
  | cons first ms ih =>
    obtain ⟨hfirst, hms⟩ := List.forall_mem_cons.mp hms
    cases before with
    | nil =>
      have heq : first = m := (List.cons.inj h).1
      exact absurd (heq ▸ hm) hfirst
    | cons b before => exact ih hms (List.cons.inj h).2

/-- Where no moment is a `(quit)` form, none that the list is cut at is one. -/
theorem Moment.not_quits_of_cut {before ms after : List Moment} {m : Moment}
    (hms : ∀ m ∈ ms, ¬ m.Quits) (h : ms = before ++ m :: after) : ¬ m.Quits := by
  have hmem : m ∈ ms := by
    rw [h]
    exact List.mem_append_right before List.mem_cons_self
  exact hms m hmem

/-- The law holds of every sound trace. -/
theorem Traced.Sound.quitLaw {x : Traced α} {s : State} (h : Traced.Sound quits good x)
    (hs : s.WellFormed) (hgood : ∀ a, good a → ¬ quits a ∧ clean a) :
    Run.QuitLaw quits clean (x s).1 (x.run s) := by
  show Run.QuitLaw quits clean (x s).1 (x s).2
  rcases hxs : x s with ⟨ms, r⟩
  obtain ⟨hms, hends⟩ := h.ends hs hxs
  show Run.QuitLaw quits clean ms r
  have hfree : ∀ m ∈ ms, m.QuitFree := fun m hm => (hms m hm).quitFree
  cases hends with
  | @value ms a t hquiet ha ht =>
    refine ⟨fun before m after heq hm => ?_, fun b u hr hb => ?_, hfree, ?_, fun b u hr => ?_⟩
    · exact absurd hm (Moment.not_quits_of_cut hquiet heq)
    · cases hr
      exact absurd hb (hgood a ha).1
    · rintro u (⟨b, hr⟩ | ⟨fault, hr⟩) <;> cases hr
      exact ht.quitFree
    · cases hr
      exact Or.inr (hgood a ha).2
  | @quit before m a loading hbefore hm ha =>
    -- a `(quit)` form among the moments can only be the last of them
    have hmem : m ∈ before ++ [m] := List.mem_append_right _ List.mem_cons_self
    refine ⟨fun before' m' after heq hm' => ?_, fun _ _ _ _ => ⟨m, hmem, hm⟩, hfree, ?_,
      fun b u hr => ?_⟩
    · obtain ⟨rfl, rfl⟩ := Moment.last_quits hbefore heq hm'
      exact ⟨rfl, a, loading, ha, rfl⟩
    · rintro u (⟨b, hr⟩ | ⟨fault, hr⟩) <;> cases hr
      exact (hms m hmem).state.quitFree
    · cases hr
      exact Or.inl ha
  | @fault ms fault t hquiet hfault ht =>
    refine ⟨fun before m after heq hm => ?_, fun b u hr _ => (nomatch hr), hfree, ?_,
      fun b u hr => (nomatch hr)⟩
    · exact absurd hm (Moment.not_quits_of_cut hquiet heq)
    · rintro u (⟨b, hr⟩ | ⟨fault, hr⟩) <;> cases hr
      exact ht.quitFree

end Law

/-- The law for runs that come to a value. -/
abbrev Run.ValueQuitLaw (ms : List Moment) (r : EStateM.Result Fault State Value) : Prop :=
  Run.QuitLaw (fun v => v = .quit) (fun v => .quit ∉ v.parts) ms r

/-- The law for traced runs whose values are not looked at. -/
theorem Traced.SoundValue.quitLaw {x : Traced Value} {s : State} (h : Traced.SoundValue x)
    (hs : s.WellFormed) : Run.ValueQuitLaw (x s).1 (x.run s) :=
  Traced.Sound.quitLaw h hs fun v hv => ⟨hv.ne_quit, Value.quit_notMem_parts v hv⟩

/-- Quitting ends everything.  The law holds of evaluating any well-formed expression in any
    well-formed environment and state; of loading a file, and all the modules that it requires;
    of all that an interpreter does, unless it is halted and does nothing; and of starting one,
    which is halted if its prelude has quit.  What the reader makes of a text is well formed, and
    so is every state that is reached from the empty store. -/
theorem quit_ends_everything :
    (∀ loader? steps room below expr env s, expr.WellFormed → env.WellFormed → s.WellFormed →
      Run.ValueQuitLaw (Trace.evaluate loader? steps room below expr env s).1
        (Eval.evaluate loader? steps room below expr env s)) ∧
    (∀ loader? steps room loader path s, s.WellFormed →
      Run.ValueQuitLaw (Trace.loadPath loader (Trace.within loader? steps room) path s).1
        (Loader.loadPath loader (Eval.within loader? steps room) path s)) ∧
    (∀ i source s, i.halted = false → s.WellFormed →
      Run.ValueQuitLaw (Trace.eval i source s).1 (Interpreter.eval i source s)) ∧
    (∀ i path s, i.halted = false → s.WellFormed →
      Run.ValueQuitLaw (Trace.loadFile i path s).1 (Interpreter.loadFile i path s)) ∧
    (∀ i s, i.halted = true →
      (∀ source, Interpreter.eval i source s = .ok .quit s) ∧
        ∀ path, Interpreter.loadFile i path s = .ok .quit s) ∧
    (∀ loader room prelude s, s.WellFormed →
      Run.QuitLaw (fun i => i.halted = true) (fun i => i.halted = false)
        (Trace.start loader room prelude s).1 (Interpreter.start loader room prelude s)) ∧
    (∀ room source, Value.AllWellFormed (Script.ofText room source).forms) ∧
    ∀ s, Reachable s → s.WellFormed := by
  refine ⟨?_, ?_, ?_, ?_, ?_, ?_, ?_, fun s h => h.wellFormed⟩
  · intro loader? steps room below expr env s hexpr henv hs
    rw [← Trace.evaluate_run]
    -- every run is that of its trace, and each part of a trace is sound
    exact Traced.SoundValue.quitLaw (Trace.evaluate_sound loader? steps room below hexpr henv) hs
  · intro loader? steps room loader path s hs
    rw [← Trace.loadPath_run]
    exact Traced.SoundValue.quitLaw
      (Trace.loadPath_sound (Trace.within_sound loader? steps room) loader path) hs
  · intro i source s hi hs
    rw [← Trace.eval_run]
    exact Traced.SoundValue.quitLaw (Trace.eval_sound hi source) hs
  · intro i path s hi hs
    rw [← Trace.loadFile_run]
    exact Traced.SoundValue.quitLaw (Trace.loadFile_sound hi path) hs
  · intro i s hi
    refine ⟨fun source => ?_, fun path => ?_⟩
    · rw [Interpreter.eval, if_pos hi]
      rfl
    · rw [Interpreter.loadFile, if_pos hi]
      rfl
  · intro loader room prelude s hs
    rw [← Trace.start_run]
    refine Traced.Sound.quitLaw (Trace.start_sound loader room prelude) hs fun i hi => ⟨?_, hi⟩
    rw [hi]
    exact Bool.false_ne_true
  · intro room source
    exact (Script.ofTokens_wellFormed room _).1

/-- `(begin (quit) x)`, which does not get to `x`. -/
theorem quit_ends_everything_begin :
    Eval.evaluate none 5 20 0 (.list .unknown [.symbol "begin", .list .unknown [.symbol "quit"],
      .symbol "x"]) .empty State.initial = .ok .quit State.initial ∧
    ∃ m ∈ (Trace.evaluate none 5 20 0 (.list .unknown [.symbol "begin",
      .list .unknown [.symbol "quit"], .symbol "x"]) .empty State.initial).1, m.Quits := by
  have hexpr : (Value.list .unknown [.symbol "begin", .list .unknown [.symbol "quit"],
      .symbol "x"]).WellFormed := ⟨trivial, ⟨trivial, trivial⟩, trivial, trivial⟩
  have hlaw := quit_ends_everything.1 none 5 20 0 _ .empty State.initial hexpr trivial
    Reachable.initial.wellFormed
  have hquit : Eval.evaluate none 5 20 0 (.list .unknown [.symbol "begin",
      .list .unknown [.symbol "quit"], .symbol "x"]) .empty State.initial
        = .ok .quit State.initial := rfl
  exact ⟨hquit, hlaw.caused _ _ hquit rfl⟩

end SmallScheme
