/-
  THE DIALOGUE goes on after errors.

  `Dialogue` says what comes of the lines of an input, one rule for each thing that can happen:
  lines are collected until they hold complete forms, forms are answered in order, and an error in
  reading or evaluating is shown and put on record, whereupon the dialogue goes on with the next
  line as if nothing were pending.  Every run of the dialogue follows these rules
  (`feedAll_dialogue`).

  Structure:
    1. The rules, for forms that were read together (`Answers`) and for lines (`Dialogue`).
    2. The dialogue follows the rules.  `evalForms_cons` and `feedAll_cons` say what the loops do
       with the first form and the first line; the rest is induction.
    3. What ends a dialogue early.  A form is well formed when it has been read, and evaluating it
       leads to a well-formed state (`evalForm_sound`), so the only faults that come up are those
       that are expected of a well-formed state, and errors among them are shown.

  Some rules end the dialogue early.  They are about faults that are no errors: a limit on numbers
  or on nesting that reading or printing has met, a module whose name, file or bytes are of no use,
  and an escape that no character belongs to, where it was to be displayed.  So a run either comes
  to the end of its input, or ends in one of these.
-/
import SmallScheme.Proofs.Reachable
import SmallScheme.Repl

namespace SmallScheme

/-- The faults that the dialogue does not take for errors: limits, what is wrong with the files of
    modules, and surrogates that were to be displayed. -/
def Fault.EndsDialogue : Fault → Prop
  | .digitsPrinted | .digitsRead _ | .tooDeep | .tooLong => True
  | .namelessPath _ | .unreadable _ _ | .nullInPath | .undecodable _ | .unencodable _ => True
  | _ => False

/-- Of the faults that are expected, all but the errors end the dialogue. -/
theorem Fault.endsDialogue_of_expected {fault : Fault} (h : fault.Expected)
    (herror : ∀ e, fault ≠ .error e) : fault.EndsDialogue := by
  cases fault with
  | error e => exact absurd rfl (herror e)
  | noItem | unequalFrame | notInteger | unknownLevel | hugeLimit | noLibraryPath | noLogLevel =>
    exact h.elim
  | _ => trivial

namespace Repl

/-! ## The rules -/

/-- The state after a text has been displayed. -/
def shown (text : String) (s : State) : State := { s with out := s.out ++ text }

/-- The state after something has been put on record. -/
def noted (event : Event) (s : State) : State := { s with events := s.events.push event }

/-- The state after an invitation, if there is to be one. -/
def invited (prompting : Bool) (text : String) (s : State) : State :=
  if prompting then shown text s else s

/-- What comes of forms that were read together: whether one of them has quit, or the fault that
    ends the dialogue. -/
inductive Answers (i : Interpreter) :
    List Value → State → EStateM.Result Fault State Bool → Prop where
  | nil {s : State} : Answers i [] s (.ok false s)
  /-- A form that quits is the last. -/
  | quit {form : Value} {forms : List Value} {s t : State}
    (h : (Run.letIn form >>= i.evalForm) s = .ok .quit t) : Answers i (form :: forms) s (.ok true t)
  /-- A form that is evaluated for its effect is not answered. -/
  | effect {form : Value} {forms : List Value} {s t : State}
    {r : EStateM.Result Fault State Bool}
    (h : (Run.letIn form >>= i.evalForm) s = .ok .unspecified t) (hrest : Answers i forms t r) :
    Answers i (form :: forms) s r
  /-- Any other value is shown. -/
  | value {form v : Value} {forms : List Value} {s t : State} {text : String}
    {r : EStateM.Result Fault State Bool} (h : (Run.letIn form >>= i.evalForm) s = .ok v t)
    (hquit : v ≠ .quit) (heffect : v ≠ .unspecified) (hprint : v.print i.room true = .ok text)
    (hrest : Answers i forms (shown (text ++ "\n") t) r) : Answers i (form :: forms) s r
  /-- An error is put on record and shown; the other forms are dropped. -/
  | error {form : Value} {forms : List Value} {s t : State} {e : Error}
    (h : (Run.letIn form >>= i.evalForm) s = .error (.error e) t) :
    Answers i (form :: forms) s
      (.ok false (shown s!"error: {e.message}\n" (noted (.reported e) t)))
  /-- So is an evaluation that went too deep. -/
  | tooDeep {form : Value} {forms : List Value} {s t : State} {text : String}
    (h : (Run.letIn form >>= i.evalForm) s = .error .tooDeep t)
    (hprint : (form.stamp s.made).1.print i.room true = .ok text) :
    Answers i (form :: forms) s
      (.ok false (shown "error: recursion too deep\n" (noted (.tooDeepIn (form.stamp s.made).1) t)))
  /-- Any other fault ends the dialogue. -/
  | fault {form : Value} {forms : List Value} {s t : State} {fault : Fault}
    (h : (Run.letIn form >>= i.evalForm) s = .error fault t) (herror : ∀ e, fault ≠ .error e)
    (hdeep : fault ≠ .tooDeep) : Answers i (form :: forms) s (.error fault t)
  /-- So does a value that cannot be printed, -/
  | limit {form v : Value} {forms : List Value} {s t : State} {limit : Limit}
    (h : (Run.letIn form >>= i.evalForm) s = .ok v t) (hquit : v ≠ .quit)
    (heffect : v ≠ .unspecified) (hprint : v.print i.room true = .error limit) :
    Answers i (form :: forms) s (.error (.ofLimit limit) t)
  /-- and a form that went too deep and cannot be printed. -/
  | deepLimit {form : Value} {forms : List Value} {s t : State} {limit : Limit}
    (h : (Run.letIn form >>= i.evalForm) s = .error .tooDeep t)
    (hprint : (form.stamp s.made).1.print i.room true = .error limit) :
    Answers i (form :: forms) s (.error (.ofLimit limit) t)

/-- What comes of lines of input, with a text pending. -/
inductive Dialogue (i : Interpreter) (prompting : Bool) :
    (pending : String) → List String → State → EStateM.Result Fault State Unit → Prop where
  /-- At the end of the input, what is pending is put on record, unless it is blank. -/
  | finish {pending : String} {s : State} : Dialogue i prompting pending [] s (.ok ()
      (if Text.hasInk pending.toList then noted .discarding s else s))
  /-- A text that is incomplete stays pending. -/
  | incomplete {pending line : String} {lines : List String} {s : State} {e : Error}
    {r : EStateM.Result Fault State Unit}
    (h : (Script.ofText i.room (pending ++ line)).all = .error (.error e))
    (hkind : e.kind = .incomplete)
    (hrest : Dialogue i prompting (pending ++ line) lines
      (invited prompting continuationPrompt s) r) :
    Dialogue i prompting pending (line :: lines) s r
  /-- Any other error in reading is put on record and shown, and nothing is pending. -/
  | error {pending line : String} {lines : List String} {s : State} {e : Error}
    {r : EStateM.Result Fault State Unit}
    (h : (Script.ofText i.room (pending ++ line)).all = .error (.error e))
    (hkind : e.kind ≠ .incomplete)
    (hrest : Dialogue i prompting "" lines
      (invited prompting prompt (shown s!"error: {e.message}\n" (noted (.reported e) s))) r) :
    Dialogue i prompting pending (line :: lines) s r
  /-- Complete forms are answered, and nothing is pending, whether one of them failed or not. -/
  | forms {pending line : String} {lines : List String} {s t : State} {forms : List Value}
    {r : EStateM.Result Fault State Unit}
    (h : (Script.ofText i.room (pending ++ line)).all = .ok forms)
    (hforms : Answers i forms s (.ok false t))
    (hrest : Dialogue i prompting "" lines (invited prompting prompt t) r) :
    Dialogue i prompting pending (line :: lines) s r
  /-- The dialogue is over when one of them has quit. -/
  | quit {pending line : String} {lines : List String} {s t : State} {forms : List Value}
    (h : (Script.ofText i.room (pending ++ line)).all = .ok forms)
    (hforms : Answers i forms s (.ok true t)) :
    Dialogue i prompting pending (line :: lines) s (.ok () t)
  /-- It also ends with a fault in reading that is no error, -/
  | unread {pending line : String} {lines : List String} {s : State} {fault : Fault}
    (h : (Script.ofText i.room (pending ++ line)).all = .error fault)
    (herror : ∀ e, fault ≠ .error e) :
    Dialogue i prompting pending (line :: lines) s (.error fault s)
  /-- or with one in answering. -/
  | fault {pending line : String} {lines : List String} {s t : State} {forms : List Value}
    {fault : Fault} (h : (Script.ofText i.room (pending ++ line)).all = .ok forms)
    (hforms : Answers i forms s (.error fault t)) :
    Dialogue i prompting pending (line :: lines) s (.error fault t)

/-! ## The dialogue follows the rules -/

/-- What cannot be printed ends the run. -/
theorem printed_bind {α : Type} (text : Except Limit String) (k : String → Run α) (s : State) :
    (Run.printed text >>= k) s = match text with
      | .ok text => k text s
      | .error limit => .error (.ofLimit limit) s := by
  cases text <;> rfl

/-- What the first form comes to decides what is done with the others. -/
theorem evalForms_cons (i : Interpreter) (form : Value) (forms : List Value) (s : State) :
    evalForms i (form :: forms) s = match (Run.letIn form >>= i.evalForm) s with
      | .ok .quit t => .ok true t
      | .ok .unspecified t => evalForms i forms t
      | .ok v t =>
        match v.print i.room true with
        | .ok text => evalForms i forms (shown (text ++ "\n") t)
        | .error limit => .error (.ofLimit limit) t
      | .error (.error e) t =>
        .ok false (shown s!"error: {e.message}\n" (noted (.reported e) t))
      | .error .tooDeep t =>
        match (form.stamp s.made).1.print i.room true with
        | .ok _ => .ok false
          (shown "error: recursion too deep\n" (noted (.tooDeepIn (form.stamp s.made).1) t))
        | .error limit => .error (.ofLimit limit) t
      | .error fault t => .error fault t := by
  have heval : (Run.letIn form >>= i.evalForm) s
      = i.evalForm (form.stamp s.made).1 { s with made := (form.stamp s.made).2 } := rfl
  -- letting the form in never fails, and neither does the attempt
  rw [evalForms, Run.bind_apply]
  show (attempt (i.evalForm (form.stamp s.made).1) >>= _) _ = _
  rw [Run.bind_apply, attempt, ← heval]
  cases (Run.letIn form >>= i.evalForm) s with
  | ok v t =>
    cases v with
    | quit | unspecified => rfl
    | _ =>
      dsimp only
      rw [printed_bind]
      generalize Value.print i.room true _ = text
      cases text <;> rfl
  | error fault t =>
    cases fault with
    | tooDeep =>
      dsimp only
      rw [printed_bind]
      generalize Value.print i.room true _ = text
      cases text <;> rfl
    | _ => rfl

/-- Forms are answered by the rules. -/
theorem evalForms_answers (i : Interpreter) (forms : List Value) (s : State) :
    Answers i forms s (evalForms i forms s) := by
  induction forms generalizing s with
  | nil => exact .nil
  | cons form forms ih =>
    -- what the form came to, and whether its value can be printed, decides on the rule
    rw [evalForms_cons]
    split
    · next t hr => exact .quit hr
    · next t hr => exact .effect hr (ih t)
    · next v t hquit heffect hr =>
      split
      · next text hprint => exact .value hr hquit heffect hprint (ih _)
      · next limit hprint => exact .limit hr hquit heffect hprint
    · next e t hr => exact .error hr
    · next t hr =>
      split
      · next text hprint => exact .tooDeep hr hprint
      · next limit hprint => exact .deepLimit hr hprint
    · next fault t herror hdeep hr => exact .fault hr herror hdeep

/-- An invitation is displayed, or there is none. -/
theorem invite_bind {α : Type} (prompting : Bool) (text : String) (x : Run α) (s : State) :
    (invite prompting text >>= fun _ => x) s = x (invited prompting text s) := by
  cases prompting <;> rfl

/-- What is read of the first line, with what is pending, decides what is done with the others. -/
theorem feedAll_cons (i : Interpreter) (prompting : Bool) (pending line : String)
    (lines : List String) (s : State) :
    feedAll i prompting pending (line :: lines) s
      = match (Script.ofText i.room (pending ++ line)).all with
      | .error (.error e) =>
        if e.kind = .incomplete then
          feedAll i prompting (pending ++ line) lines (invited prompting continuationPrompt s)
        else feedAll i prompting "" lines
          (invited prompting prompt (shown s!"error: {e.message}\n" (noted (.reported e) s)))
      | .error fault => .error fault s
      | .ok forms =>
        match evalForms i forms s with
        | .ok true t => .ok () t
        | .ok false t => feedAll i prompting "" lines (invited prompting prompt t)
        | .error fault t => .error fault t := by
  rw [feedAll, Run.bind_apply, feed]
  cases (Script.ofText i.room (pending ++ line)).all with
  | error fault =>
    cases fault with
    | error e =>
      dsimp only
      by_cases hkind : e.kind = .incomplete
      · rw [if_pos hkind, if_pos hkind, invite_bind]
        rfl
      · rw [if_neg hkind, if_neg hkind]
        -- after the report there is nothing pending, and the invitation is the first one
        have hreport : (do report e; invite prompting prompt; pure (some "") : Run _) s
            = (invite prompting prompt >>= fun _ => pure (some ""))
              (shown s!"error: {e.message}\n" (noted (.reported e) s)) := rfl
        rw [hreport, invite_bind]
        rfl
    | _ => rfl
  | ok forms =>
    dsimp only
    rw [Run.bind_apply]
    cases evalForms i forms s with
    | ok quits t =>
      cases quits with
      | true => rfl
      | false =>
        dsimp only
        rw [if_neg Bool.false_ne_true, invite_bind]
        rfl
    | error fault t => rfl

/-- The dialogue follows the rules. -/
theorem feedAll_dialogue (i : Interpreter) (prompting : Bool) (pending : String)
    (lines : List String) (s : State) :
    Dialogue i prompting pending lines s (feedAll i prompting pending lines s) := by
  induction lines generalizing pending s with
  | nil =>
    have hend : feedAll i prompting pending [] s
        = .ok () (if Text.hasInk pending.toList then noted .discarding s else s) := by
      rw [feedAll, finish]
      split <;> rfl
    rw [hend]
    exact .finish
  | cons line lines ih =>
    -- on the lines: an incomplete text is pending for the next one, and nothing is after any other
    rw [feedAll_cons]
    split
    · next e hall =>
      by_cases hkind : e.kind = .incomplete
      · rw [if_pos hkind]
        exact .incomplete hall hkind (ih _ _)
      · rw [if_neg hkind]
        exact .error hall hkind (ih _ _)
    · next fault herror hall => exact .unread hall herror
    · next forms hall =>
      have hforms := evalForms_answers i forms s
      split
      · next t hr =>
        rw [hr] at hforms
        exact .quit hall hforms
      · next t hr =>
        rw [hr] at hforms
        exact .forms hall hforms (ih _ _)
      · next fault t hr =>
        rw [hr] at hforms
        exact .fault hall hforms

/-! ## What ends a dialogue early -/

/-- To meet a limit in printing ends the dialogue. -/
theorem ofLimit_endsDialogue (limit : Limit) : (Fault.ofLimit limit).EndsDialogue := by
  cases limit <;> trivial

/-- Evaluating a form that was read is sound. -/
theorem evalForm_sound (i : Interpreter) {form : Value} (h : form.WellFormed) :
    Run.Sound Value.IsResult (Run.letIn form >>= i.evalForm) := by
  refine (Run.letIn_sound h).bind fun form hform s hs => ?_
  have hupright : Run.Upright Value.IsResult _ (i.evalForm form s) :=
    Eval.evaluate_upright hs (some i.loader) Interpreter.maxSteps i.room 0 hform trivial
  cases hr : i.evalForm form s with
  | ok v t => exact hupright.value v t hr
  | error fault t => exact hupright.fault fault t hr

/-- A form that has a value leaves a well-formed state. -/
theorem evalForm_ok {i : Interpreter} {form v : Value} {s t : State}
    (hform : form.WellFormed) (hs : s.WellFormed)
    (h : (Run.letIn form >>= i.evalForm) s = .ok v t) : t.WellFormed := by
  have hsound := evalForm_sound i hform s hs
  rw [h] at hsound
  exact hsound.2

/-- So does a form that fails, and its fault is an expected one. -/
theorem evalForm_error {i : Interpreter} {form : Value} {s t : State} {fault : Fault}
    (hform : form.WellFormed) (hs : s.WellFormed)
    (h : (Run.letIn form >>= i.evalForm) s = .error fault t) :
    fault.Expected ∧ t.WellFormed := by
  have hsound := evalForm_sound i hform s hs
  rw [h] at hsound
  exact hsound

/-- So does an invitation. -/
theorem invited_wellFormed {s : State} (hs : s.WellFormed) (prompting : Bool) (text : String) :
    (invited prompting text s).WellFormed := by
  cases prompting <;> exact hs

/-- A run of the dialogue stays well formed and ends early only as it may. -/
def Lasting {α : Type} : EStateM.Result Fault State α → Prop
  | .ok _ t => t.WellFormed
  | .error fault t => fault.EndsDialogue ∧ t.WellFormed

/-- No error ends the answers. -/
theorem Answers.lasting {i : Interpreter} {forms : List Value} {s : State}
    {r : EStateM.Result Fault State Bool} (h : Answers i forms s r)
    (hforms : Value.AllWellFormed forms) (hs : s.WellFormed) : Lasting r := by
  induction h with
  | nil => exact hs
  | quit h => exact evalForm_ok hforms.1 hs h
  | effect h _ ih => exact ih hforms.2 (evalForm_ok hforms.1 hs h)
  | value h _ _ _ _ ih =>
    have ht := evalForm_ok hforms.1 hs h
    exact ih hforms.2 ht
  | error h | tooDeep h => exact (evalForm_error hforms.1 hs h).2
  | fault h herror =>
    obtain ⟨hexpected, ht⟩ := evalForm_error hforms.1 hs h
    exact ⟨Fault.endsDialogue_of_expected hexpected herror, ht⟩
  | limit h => exact ⟨ofLimit_endsDialogue _, evalForm_ok hforms.1 hs h⟩
  | deepLimit h => exact ⟨ofLimit_endsDialogue _, (evalForm_error hforms.1 hs h).2⟩

/-- What is read is well formed. -/
theorem ofText_wellFormed {room : Nat} {source : String} {forms : List Value}
    (h : (Script.ofText room source).all = .ok forms) : Value.AllWellFormed forms := by
  rw [← (Script.all_eq_ok_iff.mp h).2]
  exact (Script.ofTokens_wellFormed room _).1

/-- What stops the reader is an expected fault. -/
theorem ofText_expected {room : Nat} {source : String} {fault : Fault}
    (h : (Script.ofText room source).all = .error fault) : fault.Expected :=
  (Script.ofTokens_wellFormed room _).2 fault (Script.all_eq_error_iff.mp h)

/-- No error ends the dialogue. -/
theorem Dialogue.lasting {i : Interpreter} {prompting : Bool} {pending : String}
    {lines : List String} {s : State} {r : EStateM.Result Fault State Unit}
    (h : Dialogue i prompting pending lines s r) (hs : s.WellFormed) : Lasting r := by
  induction h with
  | finish =>
    show State.WellFormed (if _ then _ else _)
    split <;> exact hs
  | incomplete _ _ _ ih => exact ih (invited_wellFormed hs _ _)
  | error _ _ _ ih =>
    refine ih (invited_wellFormed ?_ _ _)
    exact hs
  | forms h hforms _ ih =>
    exact ih (invited_wellFormed (hforms.lasting (ofText_wellFormed h) hs) _ _)
  | quit h hforms => exact hforms.lasting (ofText_wellFormed h) hs
  | unread h herror => exact ⟨Fault.endsDialogue_of_expected (ofText_expected h) herror, hs⟩
  | fault h hforms => exact hforms.lasting (ofText_wellFormed h) hs

/-- A dialogue goes on after errors.  With a halted interpreter there is none.  Otherwise it follows
    the rules: what cannot be read or evaluated because of an error, or goes too deep in evaluation,
    is shown and put on record, and the next line is taken with nothing pending.  So it comes to the
    end of its input or to a form that quits, or else it ends in a fault that is no error. -/
theorem dialogue_survives_errors (i : Interpreter) (prompting : Bool) (input : String) {s : State}
    (hs : s.WellFormed) :
    (i.halted = true → run i prompting input s = .ok () s) ∧
    (i.halted = false → Dialogue i prompting "" ((Text.lines input.toList).map String.ofList)
      (invited prompting prompt s) (run i prompting input s)) ∧
    ((∃ t, run i prompting input s = .ok () t ∧ t.WellFormed) ∨
      ∃ fault t, run i prompting input s = .error fault t ∧ fault.EndsDialogue ∧ t.WellFormed) := by
  have hhalted : i.halted = true → run i prompting input s = .ok () s := by
    intro h
    rw [run, if_pos h]
    rfl
  have hdialogue : i.halted = false →
      Dialogue i prompting "" ((Text.lines input.toList).map String.ofList)
        (invited prompting prompt s) (run i prompting input s) := by
    intro h
    rw [run, h, if_neg Bool.false_ne_true, invite_bind]
    exact feedAll_dialogue i prompting "" _ _
  refine ⟨hhalted, hdialogue, ?_⟩
  have hlasting : Lasting (run i prompting input s) := by
    cases h : i.halted with
    | true =>
      rw [hhalted h]
      exact hs
    | false => exact (hdialogue h).lasting (invited_wellFormed hs _ _)
  cases hr : run i prompting input s with
  | ok u t =>
    rw [hr] at hlasting
    exact Or.inl ⟨t, rfl, hlasting⟩
  | error fault t =>
    rw [hr] at hlasting
    exact Or.inr ⟨fault, t, rfl, hlasting⟩

/-- An interpreter without any files. -/
def bare : Interpreter := ⟨⟨[], ⟨[], []⟩, []⟩, 100, false⟩

/-- An unbound symbol, and then a number. -/
theorem dialogue_survives_errors_unbound : State.initial.WellFormed ∧
    Dialogue bare true "" ((Text.lines "x\n1".toList).map String.ofList)
      (invited true prompt .initial) (run bare true "x\n1" .initial) ∧
    ((∃ t, run bare true "x\n1" .initial = .ok () t ∧ t.WellFormed) ∨
      ∃ fault t, run bare true "x\n1" .initial = .error fault t ∧ fault.EndsDialogue ∧
        t.WellFormed) := by
  have hs : State.initial.WellFormed := Reachable.initial.wellFormed
  obtain ⟨-, hdialogue, hend⟩ := dialogue_survives_errors bare true "x\n1" hs
  exact ⟨hs, hdialogue rfl, hend⟩

/-- The empty name is no module's, and asking for it ends the dialogue: nothing is shown or put on
    record, and the next line is not taken. -/
theorem dialogue_ended_by_require :
    run bare false "(require \"\")\n(add1 1)\n" .initial
      = .error (.namelessPath ⟨.relative, []⟩) { State.initial with made := 1 } := by
  have hread : (Script.ofText bare.room ("" ++ "(require \"\")\n")).all
      = .ok [.ofItems [.symbol "require", .str ""]] := by
    have hdatum : Tokens.datum bare.room (Tokens.ofText ("" ++ "(require \"\")\n").toList)
        = (.ok (some (.ofItems [.symbol "require", .str ""])), ⟨[], none⟩) := rfl
    rw [Script.ofText, Script.ofTokens_eq, hdatum]
    dsimp only
    rw [Script.ofTokens_eq]
    rfl
  have heval : (Run.letIn (.ofItems [.symbol "require", .str ""]) >>= bare.evalForm) .initial
      = .error (.namelessPath ⟨.relative, []⟩) { State.initial with made := 1 } := rfl
  show feedAll bare false "" ["(require \"\")\n", "(add1 1)\n"] .initial = _
  rw [feedAll_cons, hread]
  dsimp only
  rw [evalForms_cons, heval]

end Repl

end SmallScheme
