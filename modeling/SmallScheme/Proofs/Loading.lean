/-
  READING AND LOADING in more room.

  A text that is read in more room gives the same forms, and goes on where the reader had gone too
  deep before.  A module is loaded form by form, so what an evaluator does within another one, the
  loader does within the loader.

  Structure:
    1. The reader.  What it comes to on tokens is the same in more room, unless it went too deep
       (`Reader.run_widen` and what follows from it); and of a whole script, the forms with
       less room are the first ones with more (`Script.ofTokens_opens`).
    2. The loader.  `Run.Within` goes through its loop over forms and its bookkeeping, so that it
       holds of loading a module if it does of the evaluator.

  The two parts meet in a script that opens another one: the loader has either read the same
  forms, or it is stopped by a limit after the first of them.
-/
import SmallScheme.Proofs.Limit

namespace SmallScheme

/-! ## The reader -/

namespace Reader

/-- The state with more room. -/
def State.widen (more : Nat) : State → State
  | .ready room contexts => .ready (room + more) contexts
  | .full room items tail contexts => .full (room + more) items tail contexts

/-- What a token comes to, with more room. -/
def Step.widen (more : Nat) : Step → Step
  | .more s => .more (s.widen more)
  | step => step

/-- What tokens come to, with more room. -/
def Outcome.widen (more : Nat) : Outcome → Outcome
  | .starved s => .starved (s.widen more)
  | outcome => outcome

/-- Does room run out at the token? -/
def Step.outOfRoom : Step → Bool
  | .tooDeep | .fail .tooDeep _ => true
  | _ => false

/-- More room does not change what a complete datum comes to. -/
theorem complete_widen (more : Nat) (v : Value) (room : Nat) (contexts : List Context) :
    complete v (room + more) contexts = (complete v room contexts).widen more := by
  induction contexts generalizing v room with
  | nil => rfl
  | cons context outer ih =>
    cases context with
    | quote => rw [complete, complete, ← ih, Nat.add_right_comm]
    | list items => rfl
    | tail items => rfl

/-- Room is looked at in two places.  One is a leaf, which needs some of it while it is read. -/
theorem leaf_widen (more : Nat) {needed : Nat} {result : Except Fault Value} {room : Nat}
    {contexts : List Context} (h : (leaf needed result room contexts).outOfRoom = false) :
    leaf needed result (room + more) contexts = (leaf needed result room contexts).widen more := by
  unfold leaf at h ⊢
  split at h
  · cases h
  · next henough =>
    have hmore : ¬ room + more < needed := by omega
    rw [if_neg henough, if_neg hmore]
    cases result with
    | ok v => exact complete_widen more v room contexts
    | error fault => rfl

/-- A dot takes no room; where it is an atom, it is a leaf. -/
theorem symbol_widen (more : Nat) {text : String} {room : Nat} {contexts : List Context}
    (h : (symbol text room contexts).outOfRoom = false) :
    symbol text (room + more) contexts = (symbol text room contexts).widen more := by
  have hatom : (atom text room contexts).outOfRoom = false →
      atom text (room + more) contexts = (atom text room contexts).widen more := leaf_widen more
  unfold symbol at h ⊢
  split
  · split
    · split <;> rfl
    · next hdot =>
      simp only [hdot, if_false] at h
      exact hatom h
  · exact hatom (by simpa only using h)

/-- The other is here: each open list and each quote takes up one of it. -/
theorem enter_widen (more : Nat) {context : Context} {room : Nat} {contexts : List Context}
    (h : (enter context room contexts).outOfRoom = false) :
    enter context (room + more) contexts = (enter context room contexts).widen more := by
  cases room with
  | zero => cases h
  | succ room =>
    rw [Nat.add_right_comm]
    rfl

/-- A list that ends gives back what it took. -/
theorem close_widen (more room : Nat) (contexts : List Context) :
    close (room + more) contexts = (close room contexts).widen more := by
  unfold close
  split
  · rw [Nat.add_right_comm]
    exact complete_widen more _ _ _
  · rfl
  · rfl

/-- With more room a token comes to the same, unless room ran out at it. -/
theorem step_widen (more : Nat) (s : State) (token : Token)
    (h : (s.step token).outOfRoom = false) :
    (s.widen more).step token = (s.step token).widen more := by
  cases s with
  | ready room contexts =>
    rw [State.widen, State.step, State.step]
    rw [State.step] at h
    cases hk : token.kind with
    | symbol => exact symbol_widen more (by simpa only [hk] using h)
    | string => exact leaf_widen more (by simpa only [hk] using h)
    | quote => exact enter_widen more (by simpa only [hk] using h)
    | opening => exact enter_widen more (by simpa only [hk] using h)
    | closing => exact close_widen more room contexts
    | other name => rfl
  | full room items tail contexts =>
    rw [State.widen, State.step, State.step]
    split
    · rw [Nat.add_right_comm]
      exact complete_widen more _ _ _
    · rfl

/-- With more room tokens come to the same, unless they went too deep. -/
theorem run_widen (more : Nat) : (tokens : List Token) → (s : State) →
    (∀ rest, s.run tokens ≠ .fail .tooDeep rest) →
    (s.widen more).run tokens = (s.run tokens).widen more
  | [], _ => fun _ => rfl
  | token :: tokens, s => by
    intro h
    rw [State.run] at h
    -- the run does not end for lack of room, so neither does its first step
    have hroom : (s.step token).outOfRoom = false := by
      unfold Step.outOfRoom
      split
      · next hs => exact absurd (by rw [hs]) (h tokens)
      · next taken hs => exact absurd (by rw [hs]) (h _)
      · rfl
    rw [State.run, State.run, step_widen more s token hroom]
    cases hs : s.step token with
    | done v => rfl
    | more t =>
      rw [hs] at h
      exact run_widen more tokens t h
    | fail fault taken => rfl
    | tooDeep => rfl

/-- Room has no say in what is wrong when the tokens end. -/
theorem atEnd_widen (more : Nat) (s : State) : (s.widen more).atEnd = s.atEnd := by
  cases s with
  | ready room contexts =>
    cases contexts with
    | nil => rfl
    | cons context outer => cases context <;> rfl
  | full room items tail contexts => rfl

end Reader

/-- With more room the next datum is the same, unless it went too deep. -/
theorem Tokens.datum_widen (more room : Nat) (tokens : Tokens)
    (h : ∀ rest, tokens.datum room ≠ (.error .tooDeep, rest)) :
    tokens.datum (room + more) = tokens.datum room := by
  have hrun : ∀ rest, (Reader.State.start room).run tokens.list ≠ .fail .tooDeep rest := by
    intro rest hc
    refine h ⟨rest, tokens.unclosed?⟩ ?_
    rw [Tokens.datum, hc]
  -- more room at the start is more room in every context
  have hstart : Reader.State.start (room + more) = (Reader.State.start room).widen more := by
    rw [Reader.State.start, Reader.State.start, Reader.State.widen, Nat.add_right_comm]
  have hw := Reader.run_widen more tokens.list (.start room) hrun
  rw [← hstart] at hw
  rw [Tokens.datum, Tokens.datum, hw]
  cases hr : (Reader.State.start room).run tokens.list with
  | done v rest => rfl
  | fail fault rest => rfl
  | starved s =>
    rw [Reader.Outcome.widen]
    simp only [Reader.atEnd_widen]

namespace Script

/-- What the tokens hold, by the next datum. -/
theorem ofTokens_eq (room : Nat) (tokens : Tokens) :
    ofTokens room tokens = match tokens.datum room with
      | (.ok (some v), rest) =>
        { ofTokens room rest with forms := v :: (ofTokens room rest).forms }
      | (.ok none, rest) => ⟨[], none, rest⟩
      | (.error fault, rest) => ⟨[], some fault, rest⟩ := by
  rw [ofTokens]
  split
  · next h => rw [h]
  · next h => rw [h]
  · next h => rw [h]

/-- A script is accepted if nothing stopped the reader. -/
theorem all_eq_ok_iff {script : Script} {vs : List Value} :
    script.all = .ok vs ↔ script.fault? = none ∧ script.forms = vs := by
  unfold all
  cases script.fault? with
  | none => exact ⟨fun h => ⟨rfl, Except.ok.inj h⟩, fun h => congrArg Except.ok h.2⟩
  | some fault => exact ⟨fun h => (nomatch h), fun h => (nomatch h.1)⟩

/-- Otherwise it is refused for what did. -/
theorem all_eq_error_iff {script : Script} {fault : Fault} :
    script.all = .error fault ↔ script.fault? = some fault := by
  unfold all
  cases script.fault? with
  | none => exact ⟨fun h => (nomatch h), fun h => (nomatch h)⟩
  | some _ => rw [Except.error.injEq, Option.some.injEq]

/-- The other script is the same, or goes on where this one went too deep. -/
def Opens (script other : Script) : Prop :=
  other = script ∨
    (script.fault? = some .tooDeep ∧ ∃ more, other.forms = script.forms ++ more)

/-- With more room there is more to read, and nothing else. -/
theorem ofTokens_opens {room room' : Nat} (h : room ≤ room') (tokens : Tokens) :
    (ofTokens room tokens).Opens (ofTokens room' tokens) := by
  by_cases hdeep : ∃ rest, tokens.datum room = (.error .tooDeep, rest)
  · obtain ⟨rest, hd⟩ := hdeep
    -- this one stops here without a form, so the other goes on from nothing
    rw [ofTokens_eq room tokens, hd]
    exact Or.inr ⟨rfl, _, rfl⟩
  · obtain ⟨more, rfl⟩ := Nat.exists_eq_add_of_le h
    rw [ofTokens_eq (room + more), ofTokens_eq room,
      Tokens.datum_widen more room tokens fun rest hc => hdeep ⟨rest, hc⟩]
    split
    · next v rest hd =>
      have hlt : rest.list.length < tokens.list.length := Tokens.length_lt_of_datum hd
      rcases ofTokens_opens h rest with heq | ⟨hfault, tail, htail⟩
      · rw [heq]
        exact Or.inl rfl
      · exact Or.inr ⟨hfault, tail, by rw [htail]; rfl⟩
    · exact Or.inl rfl
    · exact Or.inl rfl
termination_by tokens.list.length

end Script

/-! ## The loader -/

/-- The other evaluator has as much room at least, and what this one does is within what it does,
    as far below as any construct goes; a form of a module goes furthest. -/
structure Evaluator.Within (ev ev' : Evaluator) : Prop where
  room : ev.room ≤ ev'.room
  run : ∀ below expr env, below ≤ Room.moduleForm →
    Run.Within (ev.run below expr env) (ev'.run below expr env)

namespace Loader

open Run (Within)

/-- The loop over forms is within the same loop with a wider evaluator. -/
theorem runForms_within {ev ev' : Evaluator} (h : ev.Within ev') (forms : List Value) :
    Within (runForms ev forms) (runForms ev' forms) := by
  induction forms with
  | nil => exact Within.refl _
  | cons form forms ih =>
    refine (Within.refl _).bind fun form => ?_
    refine (h.run _ form .empty (Nat.le_refl _)).bind fun v => ?_
    split
    · exact Within.refl _
    · exact ih

/-- Forms and more forms: the latter come after, unless one of the former quits. -/
theorem runForms_append (ev : Evaluator) (forms more : List Value) :
    runForms ev (forms ++ more)
      = runForms ev forms >>= fun quits => if quits then pure true else runForms ev more := by
  induction forms with
  | nil => rfl
  | cons form forms ih =>
    rw [List.cons_append, runForms, runForms]
    simp only [bind_assoc]
    congr 1
    funext form
    congr 1
    funext v
    split
    · rfl
    · exact ih

/-- So is a script within one that it opens. -/
theorem runScript_within {ev ev' : Evaluator} (h : ev.Within ev') {script other : Script}
    (hopens : script.Opens other) : Within (runScript ev script) (runScript ev' other) := by
  rcases hopens with rfl | ⟨hfault, more, hmore⟩
  · exact (runForms_within h _).bind fun quits => Within.refl _
  -- unless the forms before quit, the reading is stopped by a limit before the others begin
  · rw [runScript, runScript, hfault, hmore, runForms_append]
    simp only [bind_assoc]
    refine (runForms_within h _).bind fun quits => ?_
    cases quits with
    | true => exact Within.refl _
    | false => exact Within.of_limit rfl _

/-- What is done while a path is being loaded is within what a wider run does. -/
theorem whileLoading_within {α : Type} {x y : Run α} (h : Within x y) (path : Path) :
    Within (Run.whileLoading path x) (Run.whileLoading path y) := by
  intro s hs
  unfold Run.whileLoading at hs ⊢
  cases hx : x { s with loading := path :: s.loading } with
  | ok a t =>
    rw [h _ (by rw [hx]; trivial), hx]
  | error fault t =>
    rw [hx] at hs
    rw [h _ (by rw [hx]; exact hs), hx]

/-- So is loading a path. -/
theorem loadPath_within {ev ev' : Evaluator} (h : ev.Within ev') (loader : Loader) (path : Path) :
    Within (loader.loadPath ev path) (loader.loadPath ev' path) := by
  unfold loadPath
  split
  · exact Within.refl _
  · refine (Within.refl _).bind fun s => ?_
    split
    · exact Run.raise_roomy _ _ _ h.room
    · refine (Within.refl _).bind fun _ => whileLoading_within ?_ _
      split
      · exact Within.refl _
      · exact runScript_within h (Script.ofTokens_opens (Nat.sub_le_sub_right h.room _) _)

/-- The loader does within a better evaluator what it does within this one. -/
theorem load_within {ev ev' : Evaluator} (h : ev.Within ev') (loader : Loader) (name : String) :
    Within (loader.load ev name) (loader.load ev' name) := by
  refine (Within.refl _).bind fun path? => ?_
  cases path? with
  | some path => exact loadPath_within h loader path
  | none => exact Run.raise_roomy _ _ _ h.room

end Loader

end SmallScheme
