/-
  SOUND TRACES: what every run keeps to, from its first moment to its last.

  A traced run is sound (`Traced.Sound`) if, begun in a well-formed state, it has well-formed
  moments only and ends in one of three ways (`Traced.Ends`):

  * with a good value, and none of its moments was a `(quit)` form;
  * in an expected fault, and none of its moments was a `(quit)` form;
  * with the quit signal, the `(quit)` form was the last of its moments, and since then nothing
    has changed but which files are being loaded.

  The third way is handed on: whoever goes on after a sound run has to do nothing more when the
  run has quit (`Sound.bind`).  It is a condition on what comes next, so each of the program's
  loops has to be shown to meet it; this is what the lemmas below are about.

  1. **Forms** (`Way.Sound`).  A way is sound if its parts are.  Then so is each kind of form but
     `(quit)`, which `Way.Sound.form` leaves out and `step_sound` treats by itself.
  2. **Loading** (`loadPath_sound`, `load_sound`), relative to a sound watcher.
  3. **Evaluation** (`evaluate_sound`), by induction on the room: a step is sound, and following
     sound steps is.
  4. **The interpreter** (`eval_sound`, `loadFile_sound`, `start_sound`).
-/
import SmallScheme.Proofs.Sound
import SmallScheme.Proofs.Trace

namespace SmallScheme

/-- Everything there is at that moment is well formed. -/
structure Moment.WellFormed (m : Moment) : Prop where
  expr : m.expr.WellFormed
  env : m.env.WellFormed
  state : m.state.WellFormed

/-- The expression is a `(quit)` form. -/
def Moment.Quits (m : Moment) : Prop := Form.ofExpr? m.expr = .ok .quit

/-! ## The notion -/

namespace Traced

variable {α β : Type}

/-- How a sound run ends, after which moments. -/
inductive Ends (quits good : α → Prop) :
    List Moment → EStateM.Result Fault State α → Prop where
  | value {ms : List Moment} {a : α} {t : State} (hms : ∀ m ∈ ms, ¬ m.Quits) (ha : good a)
    (ht : t.WellFormed) : Ends quits good ms (.ok a t)
  | quit {before : List Moment} {m : Moment} {a : α} (loading : List Path)
    (hbefore : ∀ m ∈ before, ¬ m.Quits) (hm : m.Quits) (ha : quits a) :
    Ends quits good (before ++ [m]) (.ok a { m.state with loading := loading })
  | fault {ms : List Moment} {fault : Fault} {t : State} (hms : ∀ m ∈ ms, ¬ m.Quits)
    (hfault : fault.Expected) (ht : t.WellFormed) : Ends quits good ms (.error fault t)

/-- The traced run is sound.  `quits` are the values that stand for the quit signal, and `good`
    are the others. -/
def Sound (quits good : α → Prop) (x : Traced α) : Prop :=
  ∀ s, s.WellFormed →
    (∀ m ∈ (x s).1, m.WellFormed) ∧ Ends quits good (x s).1 (x s).2

/-- The traced run is sound and comes to a well-formed value or to the quit signal. -/
abbrev SoundValue (x : Traced Value) : Prop := Sound (fun v => v = .quit) Value.WellFormed x

variable {quits good : α → Prop} {quits' good' : β → Prop}

/-- What a sound run does from a well-formed state. -/
theorem Sound.ends {x : Traced α} (h : Sound quits good x) {s : State} (hs : s.WellFormed)
    {ms : List Moment} {r : EStateM.Result Fault State α} (hx : x s = (ms, r)) :
    (∀ m ∈ ms, m.WellFormed) ∧ Ends quits good ms r := by
  have hends := h s hs
  rw [hx] at hends
  exact hends

/-- The `(quit)` form is the only moment. -/
theorem Ends.quitNow {m : Moment} {a : α} (hm : m.Quits) (ha : quits a) :
    Ends quits good [m] (.ok a m.state) := by
  have hbefore : ∀ m' ∈ ([] : List Moment), ¬ m'.Quits := fun _ h => nomatch h
  exact .quit m.state.loading hbefore hm ha

/-- Moments before, none of which is a `(quit)` form, change nothing in how a run ends. -/
theorem Ends.prepend {before ms : List Moment} {r : EStateM.Result Fault State α}
    (hbefore : ∀ m ∈ before, ¬ m.Quits) (h : Ends quits good ms r) :
    Ends quits good (before ++ ms) r := by
  have join : ∀ {after : List Moment}, (∀ m ∈ after, ¬ m.Quits) →
      ∀ m ∈ before ++ after, ¬ m.Quits := by
    intro after hafter m hm
    rcases List.mem_append.mp hm with hm | hm
    · exact hbefore m hm
    · exact hafter m hm
  cases h with
  | value hms ha ht => exact .value (join hms) ha ht
  | quit loading hms hm ha =>
    rw [← List.append_assoc]
    exact .quit loading (join hms) hm ha
  | fault hms hfault ht => exact .fault (join hms) hfault ht

/-- A sound run without moments. -/
theorem Sound.lift {x : Run α} (h : Run.Sound good x) : Sound quits good (liftM x) := by
  intro s hs
  have hx := h s hs
  refine ⟨fun _ hm => (nomatch hm), ?_⟩
  show Ends quits good [] (x s)
  cases hxs : x s with
  | ok a t =>
    rw [hxs] at hx
    exact .value (fun _ hm => (nomatch hm)) hx.1 hx.2
  | error fault t =>
    rw [hxs] at hx
    exact .fault (fun _ hm => (nomatch hm)) hx.1 hx.2

/-- A good value. -/
theorem Sound.pure {a : α} (h : good a) : Sound quits good (pure a) :=
  Sound.lift (Run.Sound.pure h)

/-- An expected fault. -/
theorem Sound.fail {fault : Fault} (h : fault.Expected) :
    Sound quits good (Host.fail fault : Traced α) :=
  Sound.lift (Run.Sound.throw h)

/-- One sound run after another is sound, if the quit signal of the first is handed on at once. -/
theorem Sound.bind {x : Traced α} {k : α → Traced β} (hx : Sound quits good x)
    (hk : ∀ a, good a → Sound quits' good' (k a))
    (hquit : ∀ a, quits a → ∃ b, quits' b ∧ k a = Pure.pure b) :
    Sound quits' good' (x >>= k) := by
  intro s hs
  rcases hxs : x s with ⟨ms, r⟩
  obtain ⟨hms, hends⟩ := hx.ends hs hxs
  rw [Noted.bind_apply, hxs]
  cases hends with
  | value hquiet ha ht =>
    -- only now does the second run begin, and it has the last word
    obtain ⟨hms', hends'⟩ := hk _ ha _ ht
    refine ⟨fun m hm => ?_, hends'.prepend hquiet⟩
    rcases List.mem_append.mp hm with hm | hm
    · exact hms m hm
    · exact hms' m hm
  | @quit before m a loading hbefore hm ha =>
    -- the second run has no moments, and leaves the state as it was at the last one
    obtain ⟨b, hb, hkb⟩ := hquit a ha
    have hnothing : ∀ t, k a t = ([], .ok b t) := fun t => congrFun hkb t
    show (∀ m' ∈ before ++ [m] ++ (k a _).1, m'.WellFormed) ∧
      Ends quits' good' (before ++ [m] ++ (k a _).1) (k a _).2
    rw [hnothing, List.append_nil]
    exact ⟨hms, .quit loading hbefore hm hb⟩
  | fault hquiet hfault ht => exact ⟨hms, .fault hquiet hfault ht⟩

/-- A sound run, and then a sound traced run. -/
theorem Sound.lift_bind {x : Run α} {k : α → Traced β} (hx : Run.Sound good x)
    (hk : ∀ a, good a → Sound quits' good' (k a)) : Sound quits' good' (liftM x >>= k) := by
  have hlift : Sound (fun _ => False) good (liftM x : Traced α) := Sound.lift hx
  exact hlift.bind hk fun _ hquit => hquit.elim

/-- The moment of a form that is not `(quit)`. -/
theorem mark_sound {expr : Value} {env : Env} (hexpr : expr.WellFormed) (henv : env.WellFormed)
    (h : Form.ofExpr? expr ≠ .ok .quit) :
    Sound (fun _ => False) (fun _ => True) (mark expr env) := by
  intro s hs
  refine ⟨fun m hm => ?_, .value (fun m hm => ?_) trivial hs⟩
  · cases List.mem_singleton.mp hm
    exact ⟨hexpr, henv, hs⟩
  · cases List.mem_singleton.mp hm
    exact h

/-- However the run ends, only what is being loaded is put back. -/
theorem whileLoading_sound {x : Traced α} (h : Sound quits good x) (path : Path) :
    Sound quits good (Host.whileLoading path x) := by
  intro s hs
  rcases hxs : x { s with loading := path :: s.loading } with ⟨ms, r⟩
  have hloading : State.WellFormed { s with loading := path :: s.loading } := hs
  obtain ⟨hms, hends⟩ := h.ends hloading hxs
  -- the moments are those of the run inside; only the loading set is put back afterwards
  have hwhile : Noted.whileLoading path x s = (ms, Run.whileLoading path x.run s) := by
    rw [Noted.whileLoading, hxs]
  show (∀ m ∈ (Noted.whileLoading path x s).1, m.WellFormed) ∧
    Ends quits good (Noted.whileLoading path x s).1 (Noted.whileLoading path x s).2
  rw [hwhile]
  refine ⟨hms, ?_⟩
  unfold Run.whileLoading Noted.run
  rw [hxs]
  -- a run that was quit is still the quit of its last moment, with another loading set
  cases hends with
  | value hquiet ha ht => exact .value hquiet ha ht
  | quit loading hbefore hm ha => exact .quit _ hbefore hm ha
  | fault hquiet hfault ht => exact .fault hquiet hfault ht

/-- An error of depth is expected as a limit is. -/
theorem guardDepth_sound {x : Traced α} (h : Sound quits good x) :
    Sound quits good (Host.guardDepth x) := by
  intro s hs
  rcases hxs : x s with ⟨ms, r⟩
  obtain ⟨hms, hends⟩ := h.ends hs hxs
  have hguard : Noted.guardDepth x s = (ms, Run.guardDepth x.run s) := by
    rw [Noted.guardDepth, hxs]
  show (∀ m ∈ (Noted.guardDepth x s).1, m.WellFormed) ∧
    Ends quits good (Noted.guardDepth x s).1 (Noted.guardDepth x s).2
  rw [hguard]
  refine ⟨hms, ?_⟩
  show Ends quits good ms (EStateM.tryCatch x.run _ s)
  unfold EStateM.tryCatch Noted.run
  rw [hxs]
  cases hends with
  | value hquiet ha ht => exact .value hquiet ha ht
  | quit loading hbefore hm ha => exact .quit _ hbefore hm ha
  | @fault _ fault _ hquiet hfault ht =>
    -- a run out of room becomes an error of the program, and any other end stays
    cases fault with
    | tooDeep => exact .fault hquiet trivial ht
    | _ => exact .fault hquiet hfault ht

end Traced

/-! ## Forms -/

section Forms

open Traced (Sound SoundValue)

variable {β : Type} {quits good : β → Prop} {env : Env} {w : Way Traced β}

/-- What it takes for a way to be sound: its parts are, and the quit signal is given at once. -/
structure Way.Sound (quits good : β → Prop) (env : Env) (w : Way Traced β) : Prop where
  scope : env.WellFormed
  sub : ∀ below expr inner, expr.WellFormed → inner.WellFormed →
    SoundValue (w.sub below expr inner)
  load : ∀ name, SoundValue (w.load name)
  last : ∀ expr, expr.WellFormed → Traced.Sound quits good (w.last expr env)
  enter : ∀ body inner, body.WellFormed → inner.WellFormed →
    Traced.Sound quits good (w.enter body inner)
  give : ∀ v, v.WellFormed → Traced.Sound quits good (w.give v)
  giveQuit : ∃ b, quits b ∧ w.give .quit = pure b

namespace Way.Sound

variable (h : w.Sound quits good env)
include h

/-- What is left to a run. -/
theorem settle {x : Run Value} (hx : Run.Sound Value.WellFormed x) :
    Traced.Sound quits good (w.settle x) :=
  Traced.Sound.lift_bind hx h.give

/-- A complaint. -/
theorem fail {e : Error} (he : (Fault.error e).Expected) : Traced.Sound quits good (w.fail e) :=
  h.settle (Run.raise_sound w.room he)

/-- Goes on with a sound value, if the quit signal is given at once. -/
theorem goOn {x : Traced Value} {k : Value → Traced β} (hx : SoundValue x)
    (hk : ∀ v, v.WellFormed → Traced.Sound quits good (k v)) (hquit : k .quit = w.give .quit) :
    Traced.Sound quits good (x >>= k) := by
  refine Traced.Sound.bind hx hk ?_
  rintro v rfl
  rw [hquit]
  exact h.giveQuit

/-- What has quit is handed on, and a value is gone on with. -/
theorem unlessQuit {x : Traced Value} {k : Value → Traced β} (hx : SoundValue x)
    (hk : ∀ v, v.WellFormed → Traced.Sound quits good (k v)) :
    Traced.Sound quits good (w.unlessQuit x k) := by
  refine h.goOn hx (fun v hv => ?_) rfl
  split
  · exact absurd rfl hv.ne_quit
  · exact hk _ hv

/-- Operands come to their values, or to nothing when one of them has quit. -/
theorem operands {exprs : List Value} (hexprs : Value.AllWellFormed exprs) :
    Traced.Sound (fun vs? => vs? = none) (fun vs? => ∃ vs, vs? = some vs ∧ Value.AllWellFormed vs)
      (w.operands env exprs) := by
  induction exprs with
  | nil => exact Traced.Sound.pure ⟨[], rfl, trivial⟩
  | cons expr exprs ih =>
    obtain ⟨hexpr, hexprs⟩ := hexprs
    refine Traced.Sound.bind (h.sub _ expr env hexpr h.scope) (fun v hv => ?_) ?_
    · split
      · exact absurd rfl hv.ne_quit
      -- this operand has a value, and one of the others may still quit
      · refine Traced.Sound.bind (ih hexprs) ?_ ?_
        · rintro vs? ⟨vs, rfl, hvs⟩
          exact Traced.Sound.pure ⟨_, rfl, hv, hvs⟩
        · rintro vs? rfl
          exact ⟨none, rfl, rfl⟩
    · rintro v rfl
      exact ⟨none, rfl, rfl⟩

/-- `and`: a part that quits ends it, and one that is false. -/
theorem conjunction {exprs : List Value} (hexprs : Value.AllWellFormed exprs) :
    Traced.Sound quits good (w.conjunction env exprs) := by
  induction exprs with
  | nil => exact h.give _ trivial
  | cons expr exprs ih =>
    cases exprs with
    | nil => exact h.last expr hexprs.1
    | cons e es =>
      refine h.goOn (h.sub _ expr env hexprs.1 h.scope) (fun v hv => ?_) rfl
      split
      · exact h.give _ trivial
      -- the quit signal is no well-formed value, and is treated by `goOn`
      · exact absurd rfl hv.ne_quit
      -- whatever else it is, it is not false, and the others are asked
      · exact ih hexprs.2

/-- `or`: a part that quits is what it comes to. -/
theorem disjunction {exprs : List Value} (hexprs : Value.AllWellFormed exprs) :
    Traced.Sound quits good (w.disjunction env exprs) := by
  induction exprs with
  | nil => exact h.give _ trivial
  | cons expr exprs ih =>
    cases exprs with
    | nil => exact h.last expr hexprs.1
    | cons e es =>
      refine h.goOn (h.sub _ expr env hexprs.1 h.scope) (fun v hv => ?_) rfl
      split
      · exact ih hexprs.2
      · exact h.give _ hv

/-- `cond`: the clauses in turn, with the answer of `else` at the end. -/
theorem choice {otherwise? : Option Value}
    (hotherwise : ∀ answer, otherwise? = some answer → answer.WellFormed)
    {clauses : List (Value × Value)}
    (hclauses : ∀ clause ∈ clauses, clause.1.WellFormed ∧ clause.2.WellFormed) :
    Traced.Sound quits good (w.choice env otherwise? clauses) := by
  induction clauses with
  | nil =>
    cases otherwise? with
    | none => exact h.fail trivial
    | some answer => exact h.last answer (hotherwise answer rfl)
  | cons clause clauses ih =>
    obtain ⟨⟨hquestion, hanswer⟩, hclauses⟩ := List.forall_mem_cons.mp hclauses
    refine h.goOn (h.sub _ clause.1 env hquestion h.scope) (fun v hv => ?_) rfl
    split
    · exact ih hclauses
    · exact absurd rfl hv.ne_quit
    · exact h.last clause.2 hanswer

/-- A body, up to its last expression. -/
theorem sequence {first : Value} {others : List Value} (hfirst : first.WellFormed)
    (hothers : Value.AllWellFormed others) :
    Traced.Sound quits good (w.sequence env first others) := by
  induction others generalizing first with
  | nil => exact h.last first hfirst
  | cons next others ih =>
    refine h.goOn (h.sub _ first env hfirst h.scope) (fun v hv => ?_) rfl
    split
    · exact absurd rfl hv.ne_quit
    · exact ih hothers.1 hothers.2

/-- Where the number of arguments is right, the frame fits. -/
theorem call {f : Value} {args : List Value} (hf : f.WellFormed)
    (hargs : Value.AllWellFormed args) : Traced.Sound quits good (w.call f args) := by
  cases f with
  | closure formals body inner =>
    rw [Way.call]
    split
    · next hlength =>
      refine Traced.Sound.lift_bind Run.fresh_sound fun origin _ => ?_
      obtain ⟨bound, hbound, hwell⟩ := Env.bind?_wellFormed hf.2 origin hargs hlength.symm
      rw [hbound]
      exact h.enter body bound hf.1 hwell
    · exact h.fail trivial
  | primitive name => exact h.settle (Primitive.call_sound hf _ hargs)
  | _ => exact h.fail trivial

/-- Every form but `(quit)` is evaluated soundly. -/
theorem form {form : Form} (hform : form.WellFormed) (hquit : form ≠ .quit) :
    Traced.Sound quits good (w.form env form) := by
  cases form with
  | constant v => exact h.give v hform
  | identifier name => exact h.settle (Eval.lookup_sound _ name h.scope)
  | quote datum => exact h.give datum hform
  | lambda formals body => exact h.give _ ⟨hform, h.scope⟩
  | cond clauses otherwise? => exact h.choice hform.2 hform.1
  | define name expr =>
    -- what is defined is a value, for a definition that quits defines nothing
    refine h.unlessQuit (h.sub _ expr .empty hform.2 trivial) fun v hv => h.settle ?_
    refine (Run.define_sound hform.1 hv).bind fun _ _ => ?_
    exact (Run.record_sound _).bind fun _ _ => Run.Sound.pure trivial
  | and exprs => exact h.conjunction hform
  | or exprs => exact h.disjunction hform
  | not operand =>
    exact h.unlessQuit (h.sub _ operand env hform h.scope) fun v _ => h.give _ trivial
  | begin first others => exact h.sequence hform.1 hform.2
  | require name => exact h.unlessQuit (h.load name) fun _ _ => h.give _ trivial
  | quit => exact absurd rfl hquit
  | call head exprs =>
    refine h.unlessQuit (h.sub _ head env hform.1 h.scope) fun f hf => ?_
    refine Traced.Sound.bind (h.operands hform.2) ?_ ?_
    · rintro args? ⟨args, rfl, hargs⟩
      exact h.call hf hargs
    · rintro args? rfl
      exact h.giveQuit

end Way.Sound

end Forms

/-! ## Loading -/

/-- Whatever it evaluates, it evaluates soundly. -/
def Watcher.Sound (ev : Watcher) : Prop :=
  ∀ below expr env, expr.WellFormed → env.WellFormed → Traced.SoundValue (ev.run below expr env)

namespace Trace

open Traced (Sound SoundValue)

variable {ev : Watcher}

/-- Forms come to an end without quitting, or one has quit. -/
theorem runForms_sound (hev : ev.Sound) {forms : List Value}
    (hforms : Value.AllWellFormed forms) :
    Sound (fun quits => quits = true) (fun quits => quits = false) (Host.runForms ev forms) := by
  induction forms with
  | nil => exact Sound.pure rfl
  | cons form forms ih =>
    refine Sound.lift_bind (Run.letIn_sound hforms.1) fun form hform => ?_
    refine Sound.bind (hev _ form .empty hform trivial) (fun v hv => ?_) ?_
    · split
      · exact absurd rfl hv.ne_quit
      · exact ih hforms.2
    · rintro v rfl
      exact ⟨true, rfl, rfl⟩

/-- The forms of a script, and then the fault that cuts it off. -/
theorem runScript_sound (hev : ev.Sound) (room : Nat) (tokens : Tokens) :
    SoundValue (Host.runScript ev (Script.ofTokens room tokens)) := by
  obtain ⟨hforms, hfault⟩ := Script.ofTokens_wellFormed room tokens
  refine Sound.bind (runForms_sound hev hforms) ?_ ?_
  · rintro quits rfl
    dsimp only
    split
    · next fault h => exact Sound.fail (hfault fault h)
    · exact Sound.pure trivial
  · rintro quits rfl
    exact ⟨.quit, rfl, rfl⟩

/-- Reading a file is noted by nothing. -/
theorem openFile_sound (loader : Loader) (room : Nat) (file : Path) {k : String → Traced Value}
    (hk : ∀ source, SoundValue (k source)) : SoundValue (Host.openFile loader room file k) := by
  refine Sound.lift_bind Run.get_sound fun s _ => ?_
  split
  · exact Sound.lift (Run.raise_sound _ trivial)
  · refine Sound.lift_bind (Run.record_sound _) fun _ _ => Traced.whileLoading_sound ?_ _
    rw [show (Host.note none : Traced Unit) = pure () from rfl, pure_bind]
    unfold Host.readFile
    split
    · next fault h => exact Sound.fail (Loader.text_expected h)
    · exact hk _

/-- Loading a file. -/
theorem loadPath_sound (hev : ev.Sound) (loader : Loader) (path : Path) :
    SoundValue (loadPath loader ev path) := by
  unfold loadPath Host.loadPath
  split
  · exact Sound.fail trivial
  · exact openFile_sound loader _ _ fun _ => runScript_sound hev _ _

/-- Loading a module by its name. -/
theorem load_sound (hev : ev.Sound) (loader : Loader) (name : String) :
    SoundValue (Host.load loader ev name) := by
  refine Sound.lift_bind (Loader.resolve_sound loader name) fun path? _ => ?_
  cases path? with
  | some path => exact loadPath_sound hev loader path
  | none => exact Sound.lift (Run.raise_sound _ trivial)

/-- `require`, with a loader or without one. -/
theorem require_sound (hev : ev.Sound) (loader? : Option Loader) (name : String) :
    SoundValue (Host.require loader? ev name) := by
  cases loader? with
  | some loader => exact load_sound hev loader name
  | none => exact Sound.lift (Run.raise_sound _ trivial)

/-! ## Evaluation -/

end Trace

/-- The reply is the quit signal. -/
def Reply.Quits : Reply → Prop
  | .done v => v = .quit
  | _ => False

/-- What has been made, or is left to do, is well formed. -/
def Reply.WellFormed : Reply → Prop
  | .done v => v.WellFormed
  | .part expr => expr.WellFormed
  | .body expr env => expr.WellFormed ∧ env.WellFormed

namespace Trace

open Traced (Sound SoundValue)

/-- The way of a single step is sound where its watcher is. -/
theorem way_sound {ev : Watcher} (hev : ev.Sound) (loader? : Option Loader) {env : Env}
    (henv : env.WellFormed) : (Host.way loader? ev).Sound Reply.Quits Reply.WellFormed env where
  scope := henv
  sub := hev
  load := require_sound hev loader?
  last _ h := Sound.pure h
  enter _ _ hbody hinner := Sound.pure ⟨hbody, hinner⟩
  give _ h := Sound.pure h
  giveQuit := ⟨.done .quit, rfl, rfl⟩

/-- A step is sound.  If it evaluates a `(quit)` form, that is all it does. -/
theorem step_sound {ev : Watcher} (hev : ev.Sound) (loader? : Option Loader) {expr : Value}
    {env : Env} (hexpr : expr.WellFormed) (henv : env.WellFormed) :
    Sound Reply.Quits Reply.WellFormed (step loader? ev expr env) := by
  have hway := way_sound hev loader? henv
  unfold step Host.step
  split
  · exact Sound.fail trivial
  -- a `(quit)` form is a moment of the third way to end, every other form one of the first two
  · by_cases hquit : Form.ofExpr? expr = .ok .quit
    · have heval : (Host.way loader? ev).eval expr env = pure (.done .quit) := by
        rw [Way.eval, hquit]
        rfl
      rw [heval]
      intro s hs
      have hmoment : ∀ m ∈ [(⟨expr, env, s⟩ : Moment)], m.WellFormed := by
        intro m hm
        cases List.mem_singleton.mp hm
        exact ⟨hexpr, henv, hs⟩
      have hnow : Moment.Quits ⟨expr, env, s⟩ := hquit
      exact ⟨hmoment, .quitNow hnow rfl⟩
    · refine Sound.bind (Traced.mark_sound hexpr henv hquit) (fun _ _ => ?_) fun _ h => h.elim
      unfold Way.eval
      split
      · next e h => exact hway.fail (Form.ofExpr?_expected h)
      · next form h =>
        refine hway.form (Form.ofExpr?_wellFormed hexpr h) ?_
        rintro rfl
        exact hquit h

/-- Following sound steps is sound. -/
theorem follow_sound {next : Nat → Value → Env → Traced Reply}
    (hnext : ∀ used expr env, expr.WellFormed → env.WellFormed →
      Sound Reply.Quits Reply.WellFormed (next used expr env)) (steps used : Nat)
    (body? : Option Nat) {expr : Value} {env : Env} (hexpr : expr.WellFormed)
    (henv : env.WellFormed) : SoundValue (Host.follow next steps used body? expr env) := by
  induction steps generalizing used body? expr env with
  | zero => exact Sound.fail trivial
  | succ steps ih =>
    refine Sound.bind (hnext used expr env hexpr henv) (fun reply hreply => ?_) fun reply h => ?_
    · cases reply with
      | done v => exact Sound.pure hreply
      | part expr => exact ih _ _ hreply henv
      | body expr inner => cases body? <;> exact ih _ _ hreply.1 hreply.2
    · cases reply with
      | done v => exact ⟨v, h, rfl⟩
      | part expr => exact h.elim
      | body expr inner => exact h.elim

/-- Evaluation is sound. -/
theorem evaluate_sound (loader? : Option Loader) (steps room below : Nat) {expr : Value}
    {env : Env} (hexpr : expr.WellFormed) (henv : env.WellFormed) :
    SoundValue (evaluate loader? steps room below expr env) := by
  induction room generalizing below expr env with
  | zero => exact Sound.fail trivial
  | succ room ih =>
    cases below with
    | succ below => exact ih below hexpr henv
    | zero =>
      refine follow_sound (fun used expr env hexpr henv => ?_) steps 0 none hexpr henv
      exact step_sound (fun below _ _ hexpr henv => ih _ hexpr henv) loader? hexpr henv

/-- What is nested in an evaluation is sound. -/
theorem within_sound (loader? : Option Loader) (steps room : Nat) :
    (within loader? steps room).Sound :=
  fun below _ _ hexpr henv => evaluate_sound loader? steps room below hexpr henv

/-! ## The interpreter -/

/-- So is the watcher of an interpreter. -/
theorem watcher_sound (i : Interpreter) : (watcher i).Sound := within_sound _ _ _

/-- The forms of a text. -/
theorem evalForms_sound (i : Interpreter) {last : Value} (hlast : last.WellFormed)
    {forms : List Value} (hforms : Value.AllWellFormed forms) :
    SoundValue (evalForms i last forms) := by
  induction forms generalizing last with
  | nil => exact Sound.pure hlast
  | cons form forms ih =>
    refine Sound.lift_bind (Run.letIn_sound hforms.1) fun form hform => ?_
    refine Sound.bind (Traced.guardDepth_sound (watcher_sound i 0 form .empty hform trivial))
      (fun v hv => ?_) ?_
    · split
      · exact absurd rfl hv.ne_quit
      · exact ih hv hforms.2
    · rintro v rfl
      exact ⟨.quit, rfl, rfl⟩

/-- Evaluating a text is sound, unless the interpreter has been halted. -/
theorem eval_sound {i : Interpreter} (hi : i.halted = false) (source : String) :
    SoundValue (eval i source) := by
  obtain ⟨hforms, hfault⟩ := Script.ofTokens_wellFormed i.room (Tokens.ofText source.toList)
  unfold eval Host.eval
  rw [hi, if_neg Bool.false_ne_true]
  have hlast : Value.unspecified.WellFormed := trivial
  refine Sound.bind (evalForms_sound i hlast hforms) (fun v hv => ?_) ?_
  · split
    · exact absurd rfl hv.ne_quit
    · split
      · next fault h => exact Sound.fail (hfault fault h)
      · exact Sound.pure hv
  · rintro v rfl
    exact ⟨.quit, rfl, rfl⟩

/-- Loading a file from outside, unless the interpreter has been halted. -/
theorem loadFile_sound {i : Interpreter} (hi : i.halted = false) (path : Path) :
    SoundValue (loadFile i path) := by
  unfold loadFile Host.loadFile
  rw [hi, if_neg Bool.false_ne_true]
  exact Traced.guardDepth_sound (loadPath_sound (watcher_sound i) i.loader path)

/-- The prelude: it is over with the first module that quits. -/
theorem loadPrelude_sound (i : Interpreter) (names : List String) :
    Sound (fun halted => halted = true) (fun halted => halted = false) (loadPrelude i names) := by
  induction names with
  | nil => exact Sound.pure rfl
  | cons name names ih =>
    refine Sound.bind (Traced.guardDepth_sound (load_sound (watcher_sound i) i.loader name))
      (fun v hv => ?_) ?_
    · split
      · exact absurd rfl hv.ne_quit
      · exact ih
    · rintro v rfl
      exact ⟨true, rfl, rfl⟩

/-- Starting is sound: an interpreter is halted if its prelude has quit. -/
theorem start_sound (loader : Loader) (room : Nat) (prelude : List String) :
    Sound (fun i => i.halted = true) (fun i => i.halted = false) (start loader room prelude) := by
  refine Sound.bind (loadPrelude_sound _ prelude) ?_ ?_
  · rintro halted rfl
    exact Sound.pure rfl
  · rintro halted rfl
    exact ⟨_, rfl, rfl⟩

end Trace

end SmallScheme
