/-
  SOURCES COMPOSE: to evaluate two texts, joined by the end of a line, is to evaluate the one and
  then the other.

  The first text has to be one that the reader accepts.  Then the forms of both are those of the
  first and those of the second (`Script.ofText_joined`), and the loop over forms goes through them
  in this order (`Host.evalForms_append`).  If the first text fails or quits, the second is not
  begun.  Otherwise the second is evaluated in the state that the first has left, and only three
  things tell that it was not alone: a text without forms has the value so far, and what stops the
  reader may have another place (`Continues`).

  Structure:
    1. The loop over forms, and its end: an evaluation is the loop, and then what stopped the
       reader or the last value (`conclude`).
    2. The second text, alone and after the first.

  The statement is about traced runs, so it says besides which expressions are evaluated and in
  which order, and the equality of the runs themselves is a part of it.
-/
import SmallScheme.Proofs.JoinedText
import SmallScheme.Proofs.Trace

namespace SmallScheme

/-! ## The loop over forms, and its end -/

namespace Trace

/-- How the evaluation of a text ends after its forms: with the quit signal, with what stops the
    reader, or with the value of the last form. -/
def conclude (fault? : Option Fault) : Value → Traced Value
  | .quit => pure .quit
  | v =>
    match fault? with
    | some fault => Host.fail fault
    | none => pure v

/-- Without the signal, the end is what stopped the reader, or the value. -/
theorem conclude_of_ne_quit {v : Value} (hv : v ≠ .quit) (fault? : Option Fault) (s : State) :
    conclude fault? v s = match fault? with
      | some fault => ([], .error fault s)
      | none => ([], .ok v s) := by
  cases v <;> first | exact absurd rfl hv | (cases fault? <;> rfl)

/-- Evaluates forms, up to the first that quits, or to what stops the reader. -/
def evalScript (i : Interpreter) (last : Value) (forms : List Value) (fault? : Option Fault) :
    Traced Value :=
  evalForms i last forms >>= conclude fault?

variable (i : Interpreter)

/-- An evaluation is the loop over the forms of the text, and its end. -/
theorem eval_eq_evalScript (hi : i.halted = false) (source : String) :
    eval i source = evalScript i .unspecified (Script.ofText i.room source).forms
      (Script.ofText i.room source).fault? := by
  rw [eval, Host.eval, if_neg (by rw [hi]; exact Bool.false_ne_true)]
  rfl

/-- The loop goes through the first forms, and then, unless they quit, through the others. -/
theorem evalScript_append {last : Value} (hlast : last.quits = false) (forms more : List Value)
    (fault? : Option Fault) :
    evalScript i last (forms ++ more) fault?
      = evalScript i last forms none >>= fun v =>
        if v.quits then pure .quit else evalScript i v more fault? := by
  rw [evalScript, evalScript, evalForms, Host.evalForms_append i hlast]
  simp only [bind_assoc]
  congr 1
  funext v
  cases v <;> rfl

/-- What would come after a fault does not come. -/
theorem evalScript_fault_bind (last : Value) (forms : List Value) (fault : Fault)
    (k : Value → Traced Value) :
    (evalScript i last forms (some fault) >>= fun v => if v.quits then pure .quit else k v)
      = evalScript i last forms (some fault) := by
  rw [evalScript]
  simp only [bind_assoc]
  congr 1
  funext v
  cases v <;> rfl

/-- To evaluate joined texts is to evaluate the first, and then the forms of the second. -/
theorem eval_joined {source : String} {room : Nat}
    (h : (Script.ofText room source).fault? = none) (more : String) :
    eval i (source ++ "\n" ++ more)
      = eval i source >>= fun v =>
        if v.quits then pure .quit
        else evalScript i v (Script.ofText i.room more).forms
          ((Script.ofText i.room more).fault?.map (Fault.moved (source.length + 1))) := by
  cases hi : i.halted with
  | true =>
    rw [eval, eval, Host.eval, Host.eval, hi]
    rfl
  | false =>
    rw [eval_eq_evalScript i hi, eval_eq_evalScript i hi]
    -- an accepted text can only be too deep for the room of the interpreter
    rcases Script.fault?_of_accepted h i.room with hfault | hfault
    · obtain ⟨hforms, hjoined⟩ := Script.ofText_joined hfault more
      rw [hforms, hjoined, hfault, evalScript_append i rfl]
    · have hunclosed := (Script.readOn_of_accepted h).1
      obtain ⟨hforms, hjoined⟩ := Script.ofText_joined_of_tooDeep hunclosed hfault more
      rw [hforms, hjoined, hfault, evalScript_fault_bind]

end Trace

/-! ## The second text -/

/-- How joined texts end, by how the second one ends in the state that the first has left.  The
    value of the first is `v`, and the second begins after so many characters.  The results are
    that of the second text's forms, that of the second text, and that of both. -/
inductive Continues (v : Value) (before : Nat) (script : Script) :
    (forms second both : EStateM.Result Fault State Value) → Prop where
  /-- A form fails. -/
  | failed {fault : Fault} {t : State} :
    Continues v before script (.error fault t) (.error fault t) (.error fault t)
  /-- A form quits. -/
  | quit {t : State} : Continues v before script (.ok .quit t) (.ok .quit t) (.ok .quit t)
  /-- The forms are evaluated, and then the reader is stopped. -/
  | stopped {w : Value} {t : State} {fault : Fault} (hw : w ≠ .quit)
    (h : script.fault? = some fault) :
    Continues v before script (.ok w t) (.error fault t) (.error (fault.moved before) t)
  /-- The text is evaluated to its end. -/
  | done {w : Value} {t : State} (hw : w ≠ .quit) (h : script.fault? = none) :
    Continues v before script (.ok w t) (.ok w t)
      (.ok (if script.forms.isEmpty then v else w) t)

/-- The value so far matters only to a text without forms. -/
theorem Trace.evalScript_continues (i : Interpreter) {v : Value} (hv : v ≠ .quit) (before : Nat)
    (script : Script) (t : State) :
    Continues v before script (i.evalForms .unspecified script.forms t)
      (Trace.evalScript i .unspecified script.forms script.fault? t).2
      (Trace.evalScript i v script.forms (script.fault?.map (Fault.moved before)) t).2 ∧
    (Trace.evalScript i v script.forms (script.fault?.map (Fault.moved before)) t).1
      = (Trace.evalScript i .unspecified script.forms script.fault? t).1 := by
  rw [← Trace.evalForms_run]
  obtain ⟨forms, fault?, rest⟩ := script
  cases forms with
  | nil =>
    -- without forms the second text has no value, so the one before it is the answer
    have hfirst : Trace.evalScript i .unspecified [] fault? t
        = Trace.conclude fault? .unspecified t := rfl
    have hboth : Trace.evalScript i v [] (fault?.map (Fault.moved before)) t
        = Trace.conclude (fault?.map (Fault.moved before)) v t := rfl
    rw [hfirst, hboth, conclude_of_ne_quit hv, conclude_of_ne_quit (v := .unspecified) nofun]
    cases fault? with
    | none => exact ⟨.done nofun rfl, rfl⟩
    | some fault => exact ⟨.stopped nofun rfl, rfl⟩
  | cons form forms =>
    -- with a form of its own, the value before it is forgotten
    have hsame : Trace.evalForms i v (form :: forms)
        = Trace.evalForms i .unspecified (form :: forms) := rfl
    rw [evalScript, evalScript, hsame, Noted.bind_apply, Noted.bind_apply, Noted.run]
    dsimp only
    rcases Trace.evalForms i .unspecified (form :: forms) t with ⟨moments, w | fault⟩
    · by_cases hw : w = .quit
      · subst hw
        exact ⟨.quit, rfl⟩
      · dsimp only
        rw [conclude_of_ne_quit hw, conclude_of_ne_quit hw]
        cases fault? with
        | none => exact ⟨.done hw rfl, rfl⟩
        | some fault => exact ⟨.stopped hw rfl, rfl⟩
    · exact ⟨.failed, rfl⟩

/-- Sources compose.  Let a text be accepted by the reader, and another one, well formed or not, be
    joined to it by the end of a line.  If the evaluation of the first fails or quits, so does that
    of both, in the same state, with nothing of the second evaluated.  Otherwise both do what the
    first does and then the second, in the state that the first has left: the same is evaluated, in
    the same order, and the end is the same, except that a string that nothing closes is found at
    its place in the joined text, and that the value is the first's if the second has no form. -/
theorem sources_compose (i : Interpreter) (source more : String) (room : Nat) (vs : List Value)
    (haccepted : (Script.ofText room source).all = .ok vs) (s : State) :
    (∀ fault t, i.eval source s = .error fault t →
      i.eval (source ++ "\n" ++ more) s = .error fault t ∧
      (Trace.eval i (source ++ "\n" ++ more) s).1 = (Trace.eval i source s).1) ∧
    (∀ t, i.eval source s = .ok .quit t →
      i.eval (source ++ "\n" ++ more) s = .ok .quit t ∧
      (Trace.eval i (source ++ "\n" ++ more) s).1 = (Trace.eval i source s).1) ∧
    ∀ v t, i.eval source s = .ok v t → v ≠ .quit →
      Continues v (source.length + 1) (.ofText i.room more)
        (i.evalForms .unspecified (Script.ofText i.room more).forms t) (i.eval more t)
        (i.eval (source ++ "\n" ++ more) s) ∧
      (Trace.eval i (source ++ "\n" ++ more) s).1
        = (Trace.eval i source s).1 ++ (Trace.eval i more t).1 := by
  have hjoined := Trace.eval_joined i (Script.all_eq_ok_iff.mp haccepted).1 more
  simp only [← Trace.eval_run, Noted.run]
  rw [hjoined, Noted.bind_apply]
  refine ⟨?_, ?_, ?_⟩
  · intro fault t h
    rcases hs : Trace.eval i source s with ⟨moments, result⟩
    rw [hs] at h
    cases h
    exact ⟨rfl, rfl⟩
  · intro t h
    rcases hs : Trace.eval i source s with ⟨moments, result⟩
    rw [hs] at h
    cases h
    exact ⟨rfl, List.append_nil moments⟩
  · intro v t h hv
    -- a halted interpreter would have answered with a quit
    have hi : i.halted = false := by
      cases hi : i.halted with
      | false => rfl
      | true =>
        rw [Trace.eval, Host.eval, if_pos hi] at h
        cases h
        exact absurd rfl hv
    rcases hs : Trace.eval i source s with ⟨moments, result⟩
    rw [hs] at h
    cases h
    obtain ⟨hcontinues, hmoments⟩ := Trace.evalScript_continues i hv (source.length + 1)
      (Script.ofText i.room more) t
    dsimp only
    rw [Value.quits_eq_false hv, if_neg Bool.false_ne_true, Trace.eval_eq_evalScript i hi more,
      hmoments]
    exact ⟨hcontinues, rfl⟩

/-- An interpreter that finds no file. -/
def Interpreter.fileless : Interpreter := ⟨⟨[], ⟨[], []⟩, []⟩, 100, false⟩

/-- After `1` and the end of a line, a string that nothing closes is found at 2. -/
theorem sources_compose_unclosed :
    (Script.ofText 100 "1").all = .ok [.int 1] ∧
    Interpreter.fileless.eval "1" State.initial = .ok (.int 1) State.initial ∧
    Interpreter.fileless.eval ("1" ++ "\n" ++ "\"a") State.initial
      = .error (.error (.unterminatedString 2)) State.initial := by
  have hone : (Script.ofText 100 "1").forms = [.int 1] ∧ (Script.ofText 100 "1").fault? = none := by
    rw [Script.ofText, Script.forms_ofTokens, Script.fault?_ofTokens]
    exact ⟨rfl, rfl⟩
  have hopen : (Script.ofText 100 "\"a").forms = [] ∧
      (Script.ofText 100 "\"a").fault? = some (.error (.unterminatedString 0)) := by
    rw [Script.ofText, Script.forms_ofTokens, Script.fault?_ofTokens]
    exact ⟨rfl, rfl⟩
  have haccepted : (Script.ofText 100 "1").all = .ok [.int 1] :=
    Script.all_eq_ok_iff.mpr hone.symm
  have heval : Interpreter.fileless.eval "1" State.initial = .ok (.int 1) State.initial := by
    rw [← Trace.eval_run, Trace.eval_eq_evalScript _ rfl]
    change (Trace.evalScript _ _ (Script.ofText 100 "1").forms (Script.ofText 100 "1").fault?).run
      State.initial = _
    rw [hone.1, hone.2]
    rfl
  obtain ⟨-, -, hrest⟩ := sources_compose .fileless "1" "\"a" 100 _ haccepted State.initial
  have hquit : Value.int 1 ≠ .quit := by
    intro h
    cases h
  obtain ⟨hcontinues, -⟩ := hrest (.int 1) State.initial heval hquit
  refine ⟨haccepted, heval, ?_⟩
  change Continues (.int 1) 2 (Script.ofText 100 "\"a")
    (Interpreter.evalForms _ _ (Script.ofText 100 "\"a").forms _) _ _ at hcontinues
  rw [hopen.1] at hcontinues
  generalize Interpreter.eval _ ("1" ++ "\n" ++ "\"a") _ = both at hcontinues ⊢
  generalize Interpreter.eval _ "\"a" _ = second at hcontinues
  -- the second text has no form, so its reading is what is stopped
  cases hcontinues with
  | stopped hw h =>
    rw [hopen.2] at h
    cases h
    rfl
  | done hw h =>
    rw [hopen.2] at h
    cases h

end SmallScheme
