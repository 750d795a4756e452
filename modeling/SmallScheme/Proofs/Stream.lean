/-
  STREAMS neither lose nor repeat a token.

  A stream has used some of the tokens of its source, may have drawn one that is not yet used (the
  buffer), and has the others still to draw.  What is shown here is that these three parts, put one
  after the other, are at each point the tokens of the source in order, however the steps are mixed
  and whichever of them fail.

  Structure:
    1. The parts.  `pending` is what has not been used; `IsOf source` says that the parts make up
       the source, `Exhausted` that nothing more is given, and `HasLost` which tokens were lost
       before that.
    2. A look and a use.  `peek` only fills the buffer (`peek_of_cons`), `advance` moves one token
       from the pending to the used (`advance_of_cons`), and at the end both do the same
       (`at_end`).
    3. A datum.  The stream feeds the reader one token at a time, so a datum uses the tokens that
       the reader takes of those that are pending, wherever it then breaks off
       (`datumFrom_reads`).  All data of a stream are this one after the other.
    4. Any step.  Every step `Goes` from a stream of the source to a stream of the source or to one
       that is exhausted, and a whole run of steps does so by induction.
    5. What was used for an answer, and that a look makes no difference to what follows
       (`serve_peek`).

  There are two ways for a stream to break.  The string that nothing closes is met by the first
  step that needs a token there.  And a datum of a text that is nested too deep interrupts the
  lexer: what has not been drawn then is lost.  A stream that is broken is at its end for every
  step that comes later.
-/
import SmallScheme.Proofs.Grammar
import SmallScheme.Proofs.Interleaving
import SmallScheme.Reader.Stream

namespace SmallScheme

/-- What the tokens of a stream are drawn from. -/
inductive TokenSource where
  | text (source : String)
  | list (tokens : List Token)

namespace TokenSource

/-- The tokens are drawn by a lexer, which an interruption stops for good. -/
def isText : TokenSource → Bool
  | .text _ => true
  | .list _ => false

/-- All tokens of the source, and the string that nothing closes. -/
def tokens : TokenSource → Tokens
  | .text source => .ofText source.toList
  | .list tokens => ⟨tokens, none⟩

/-- The stream when nothing has been drawn yet. -/
def stream : TokenSource → TokenStream
  | .text source => .ofText source
  | .list tokens => .ofList tokens

end TokenSource

namespace Reader

/-- Nor does the end of the tokens tell of such a string, as far as the reader knows. -/
theorem State.atEnd_ne_unterminated {reader : State} {e : Error} (h : reader.atEnd = some e)
    (position : Nat) : e ≠ .unterminatedString position := by
  unfold atEnd at h
  split at h <;> cases h <;> nofun

end Reader

namespace TokenStream

variable {source : TokenSource} {s t : TokenStream} {token : Token} {rest : List Token}

/-! ## The parts of a stream -/

/-- The tokens that are still to be used. -/
def pending (s : TokenStream) : List Token := s.buffer?.toList ++ s.undrawn.list

/-- The stream is somewhere on its way through the source, and has all tokens in order. -/
structure IsOf (source : TokenSource) (s : TokenStream) : Prop where
  lexing : s.lexing = source.isText
  tokens : s.used.reverse ++ s.pending = source.tokens.list
  unclosed : s.undrawn.unclosed? = source.tokens.unclosed?

/-- The stream gives no more tokens. -/
def Exhausted (s : TokenStream) : Prop := s.buffer? = none ∧ s.undrawn = ⟨[], none⟩

/-- The stream gives no more tokens, after those of the source but for the last ones. -/
def HasLost (source : TokenSource) (lost : List Token) (s : TokenStream) : Prop :=
  s.Exhausted ∧ s.used.reverse ++ lost = source.tokens.list

/-- A new stream has used nothing and has all tokens before it. -/
theorem stream_isOf (source : TokenSource) : source.stream.IsOf source := by
  cases source <;> exact ⟨rfl, rfl, rfl⟩

/-- The stream when the next token has been drawn. -/
def showing (s : TokenStream) (token : Token) (rest : List Token) : TokenStream :=
  { s with buffer? := some token, undrawn := { s.undrawn with list := rest } }

/-- The stream when the next token has been used. -/
def past (s : TokenStream) (token : Token) (rest : List Token) : TokenStream :=
  { s with
    used := token :: s.used
    buffer? := none
    undrawn := { s.undrawn with list := rest } }

/-- The stream when there is nothing more to be drawn. -/
def ended (s : TokenStream) : TokenStream := { s with undrawn := ⟨[], none⟩ }

/-- To look at the next token draws it, and uses nothing. -/
theorem peek_of_cons (h : s.pending = token :: rest) :
    s.peek = (.ok (some token), s.showing token rest) := by
  obtain ⟨lexing, used, buffer?, ⟨list, unclosed?⟩⟩ := s
  cases buffer? <;> cases h <;> rfl

/-- To advance past the next token uses it. -/
theorem advance_of_cons (h : s.pending = token :: rest) :
    s.advance = (.ok (some token), s.past token rest) := by
  obtain ⟨lexing, used, buffer?, ⟨list, unclosed?⟩⟩ := s
  cases buffer? <;> cases h <;> rfl

/-- Where there are no more tokens, it makes no difference whether one would be used. -/
theorem at_end (h : s.pending = []) : s.peek = (s.undrawn.atEnd.1, s.ended) ∧
    s.advance = (s.undrawn.atEnd.1, s.ended) := by
  obtain ⟨lexing, used, buffer?, ⟨list, unclosed?⟩⟩ := s
  cases buffer? with
  | some token => cases h
  | none =>
    cases h
    cases unclosed? <;> exact ⟨rfl, rfl⟩

/-- What is at its end stays there. -/
theorem pending_ended (h : s.pending = []) : s.ended.pending = [] := by
  show s.buffer?.toList ++ [] = []
  rw [(List.append_eq_nil_iff.mp h).1]
  rfl

/-- A look keeps the parts together. -/
theorem IsOf.showing (hs : s.IsOf source) (h : s.pending = token :: rest) :
    (s.showing token rest).IsOf source := by
  refine ⟨hs.lexing, ?_, hs.unclosed⟩
  have htokens := hs.tokens
  rw [h] at htokens
  exact htokens

/-- A use moves one token, and keeps the parts together. -/
theorem IsOf.past (hs : s.IsOf source) (h : s.pending = token :: rest) :
    (s.past token rest).IsOf source := by
  refine ⟨hs.lexing, ?_, hs.unclosed⟩
  have htokens := hs.tokens
  rw [h] at htokens
  simpa [TokenStream.past, pending] using htokens

/-- At the end of a source with no open string, nothing is lost. -/
theorem IsOf.ended (hs : s.IsOf source) (h : s.pending = [])
    (hclosed : source.tokens.unclosed? = none) : s.ended.IsOf source := by
  refine ⟨hs.lexing, ?_, hclosed.symm⟩
  have htokens := hs.tokens
  rw [h] at htokens
  rw [pending_ended h]
  exact htokens

/-- At the end, with or without an open string, no token is left behind. -/
theorem IsOf.hasLost_nil (hs : s.IsOf source) (h : s.pending = []) : s.ended.HasLost source [] := by
  have hbuffer : s.buffer?.toList = [] := (List.append_eq_nil_iff.mp h).1
  have htokens := hs.tokens
  rw [h] at htokens
  refine ⟨⟨?_, rfl⟩, htokens⟩
  cases hb : s.buffer? with
  | none => exact hb
  | some token =>
    rw [hb] at hbuffer
    cases hbuffer

/-- Where a datum is nested too deep, a text loses the tokens after the one at hand, and a list
    loses nothing. -/
theorem IsOf.interrupt (hs : s.IsOf source) (h : s.pending = token :: rest) :
    if source.isText then (s.showing token rest).interrupt.HasLost source rest
    else (s.showing token rest).interrupt.IsOf source := by
  have htokens := hs.tokens
  rw [h] at htokens
  unfold TokenStream.interrupt
  rw [show (s.showing token rest).lexing = source.isText from hs.lexing]
  split
  · refine ⟨⟨rfl, rfl⟩, ?_⟩
    simpa [TokenStream.showing, advance] using htokens
  · exact hs.showing h

/-- What has been looked at once is the same when it is looked at again, or used. -/
theorem peek_peek {token? : Option Token} (h : s.peek = (.ok token?, t)) :
    t.peek = s.peek ∧ t.advance = s.advance := by
  -- at the end the look stops the generator; otherwise it fills the buffer
  cases hpending : s.pending with
  | nil =>
    obtain ⟨hpeek, hadvance⟩ := at_end hpending
    rw [hpeek] at h
    rw [hpeek, hadvance]
    cases hunclosed : s.undrawn.unclosed? with
    | some position =>
      rw [Tokens.atEnd, hunclosed] at h
      cases h
    | none =>
      rw [Tokens.atEnd, hunclosed] at h
      cases h
      rw [Tokens.atEnd, hunclosed]
      exact at_end (pending_ended hpending)
  | cons token rest =>
    rw [peek_of_cons hpending] at h
    cases h
    rw [peek_of_cons hpending, advance_of_cons hpending]
    exact ⟨rfl, rfl⟩

/-! ## A datum -/

/-- The stream tells the reader what it sees: the next token, or that there is none. -/
theorem datumFrom_eq (reader : Reader.State) (s : TokenStream) :
    s.datumFrom reader = match s.peek with
      | (.error fault, t) => (.error fault, t)
      | (.ok none, t) =>
        match reader.atEnd with
        | some e => (.error (.error e), t)
        | none => (.ok none, t)
      | (.ok (some token), t) =>
        match reader.step token with
        | .done v => (.ok (some v), t.advance.2)
        | .more reader => t.advance.2.datumFrom reader
        | .tooDeep => (.error .tooDeep, t.interrupt)
        | .fail fault taken => (.error fault, if taken then t.advance.2 else t) := by
  rw [datumFrom]
  split
  · next h => rw [h]
  · next h => cases reader.atEnd <;> simp only [h]
  · next token _ h => cases hstep : reader.step token <;> simp only [h, hstep]

/-- How a datum ends, according to what the reader comes to on the tokens that are pending. -/
inductive Reads (source : TokenSource) :
    Reader.Outcome → Except Fault (Option Value) × TokenStream → Prop where
  | done {v : Value} {rest : List Token} {t : TokenStream} (ht : t.IsOf source)
    (hrest : t.pending = rest) : Reads source (.done v rest) (.ok (some v), t)
  | refused {fault : Fault} {rest : List Token} {t : TokenStream}
    (hclosed : ∀ position, fault ≠ .error (.unterminatedString position)) (ht : t.IsOf source) :
    Reads source (.fail fault rest) (.error fault, t)
  /-- The lexer has been interrupted. -/
  | interrupted {rest : List Token} {t : TokenStream} (htext : source.isText = true)
    (ht : t.HasLost source rest) : Reads source (.fail .tooDeep rest) (.error .tooDeep, t)
  | unclosed {reader : Reader.State} {position : Nat} {t : TokenStream}
    (hunclosed : source.tokens.unclosed? = some position) (ht : t.HasLost source []) :
    Reads source (.starved reader) (.error (.error (.unterminatedString position)), t)
  | incomplete {reader : Reader.State} {e : Error} {t : TokenStream}
    (hclosed : source.tokens.unclosed? = none) (he : reader.atEnd = some e) (ht : t.IsOf source) :
    Reads source (.starved reader) (.error (.error e), t)
  | none {reader : Reader.State} {t : TokenStream} (hclosed : source.tokens.unclosed? = none)
    (he : reader.atEnd = none) (ht : t.IsOf source) (hrest : t.pending = []) :
    Reads source (.starved reader) (.ok none, t)

/-- A datum takes from the stream what the reader takes of its tokens. -/
theorem datumFrom_reads (hs : s.IsOf source) (reader : Reader.State) :
    Reads source (reader.run s.pending) (s.datumFrom reader) := by
  -- on the tokens that are pending: a token is looked at, and used where the reader takes it
  induction hpending : s.pending generalizing s reader with
  | nil =>
    rw [datumFrom_eq, (at_end hpending).1, Tokens.atEnd, hs.unclosed]
    show Reads source (.starved reader) _
    cases hunclosed : source.tokens.unclosed? with
    | some position => exact .unclosed hunclosed (hs.hasLost_nil hpending)
    | none =>
      have ht := hs.ended hpending hunclosed
      dsimp only
      cases he : reader.atEnd with
      | some e => exact .incomplete hunclosed he ht
      | none => exact .none hunclosed he ht (pending_ended hpending)
  | cons token rest ih =>
    have hshown := hs.showing hpending
    have hpast := hs.past hpending
    have hadvance : (s.showing token rest).advance.2 = s.past token rest := rfl
    rw [datumFrom_eq, peek_of_cons hpending, Reader.State.run]
    dsimp only
    rw [hadvance]
    cases hstep : reader.step token with
    | done v => exact .done hpast rfl
    | more next => exact ih hpast next rfl
    | fail fault taken =>
      refine .refused (Reader.State.step_ne_unterminated hstep) ?_
      cases taken
      · exact hshown
      · exact hpast
    | tooDeep =>
      have hinterrupt := hs.interrupt hpending
      cases htext : source.isText with
      | true =>
        rw [htext] at hinterrupt
        exact .interrupted htext hinterrupt
      | false =>
        rw [htext] at hinterrupt
        have hclosed : ∀ position, Fault.tooDeep ≠ .error (.unterminatedString position) := by
          intro position heq
          cases heq
        exact .refused hclosed hinterrupt

/-! ## Steps -/

/-- What can be done with a stream: look at a token, use it, or take a datum or all data. -/
inductive Step where
  | peek
  | advance
  | datum
  | data

/-- What comes of it. -/
inductive Answer where
  | token (token? : Option Token)
  | datum (v? : Option Value)
  | data (vs : List Value)
  | fault (fault : Fault)

/-- A result as an answer. -/
def Answer.of {α : Type} (answer : α → Answer) :
    Except Fault α × TokenStream → Answer × TokenStream
  | (.ok a, t) => (answer a, t)
  | (.error refusal, t) => (.fault refusal, t)

/-- A step, with room for data. -/
def serve (room : Nat) (s : TokenStream) : Step → Answer × TokenStream
  | .peek => Answer.of .token s.peek
  | .advance => Answer.of .token s.advance
  | .datum => Answer.of .datum (s.datum room)
  | .data => Answer.of .data (s.data room)

/-- The answer at the end of the input. -/
def Step.atEnd : Step → Answer
  | .peek | .advance => .token none
  | .datum => .datum none
  | .data => .data []

/-- Taking all data comes to where the tokens end. -/
inductive RunsOut (room : Nat) : List Token → Prop where
  | now {tokens : List Token} {reader : Reader.State}
    (h : (Reader.State.start room).run tokens = .starved reader) : RunsOut room tokens
  | later {tokens rest : List Token} {v : Value}
    (h : (Reader.State.start room).run tokens = .done v rest) (hrest : RunsOut room rest) :
    RunsOut room tokens

/-- Does the step need a token after those that are pending? -/
def Step.Needs (room : Nat) (pending : List Token) : Step → Prop
  | .peek | .advance => pending = []
  | .datum => ∃ reader, (Reader.State.start room).run pending = .starved reader
  | .data => RunsOut room pending

/-- The answer tells that a string is not closed. -/
def Answer.IsUnterminated (answer : Answer) : Prop :=
  ∃ position, answer = .fault (.error (.unterminatedString position))

/-- The answer tells that the stream is broken, or may be. -/
def Answer.Breaks (source : TokenSource) (answer : Answer) : Prop :=
  answer.IsUnterminated ∨ (source.isText = true ∧ answer = .fault .tooDeep)

/-- Where a step leads that does or does not need a token after the pending ones. -/
inductive Goes (source : TokenSource) (needs : Prop) : Answer → TokenStream → Prop where
  | on {answer : Answer} {t : TokenStream} (hneeds : needs → source.tokens.unclosed? = none)
    (hanswer : ¬ answer.IsUnterminated) (ht : t.IsOf source) : Goes source needs answer t
  | unclosed {position : Nat} {t : TokenStream} (hneeds : needs)
    (hunclosed : source.tokens.unclosed? = some position) (ht : t.HasLost source []) :
    Goes source needs (.fault (.error (.unterminatedString position))) t
  | interrupted {lost : List Token} {t : TokenStream} (hneeds : ¬ needs)
    (htext : source.isText = true) (ht : t.HasLost source lost) :
    Goes source needs (.fault .tooDeep) t

section Goes

variable {needs needs' : Prop} {answer : Answer}

/-- What is no fault does not tell of a string. -/
theorem not_unterminated_of_ne_fault (h : ∀ fault, answer ≠ .fault fault) :
    ¬ answer.IsUnterminated :=
  fun ⟨_, hanswer⟩ => h _ hanswer

/-- Nor does another fault. -/
theorem not_unterminated_of_fault {fault : Fault}
    (h : ∀ position, fault ≠ .error (.unterminatedString position)) :
    ¬ (Answer.fault fault).IsUnterminated :=
  fun ⟨position, hanswer⟩ => h position (Answer.fault.inj hanswer)

/-- A need may be told in other words. -/
theorem Goes.congr (h : Goes source needs answer t) (hneeds : needs ↔ needs') :
    Goes source needs' answer t := by
  rwa [← propext hneeds]

/-- To look at a token, or to use it, needs one. -/
theorem goes_of_isOf {result : Except Fault (Option Token) × TokenStream} (hs : s.IsOf source)
    (hend : s.pending = [] → result = (s.undrawn.atEnd.1, s.ended))
    (hnext : ∀ token rest, s.pending = token :: rest →
      result.1 = .ok (some token) ∧ result.2.IsOf source) :
    Goes source (s.pending = []) (Answer.of .token result).1 (Answer.of .token result).2 := by
  -- only at the end of the tokens can a step break off, if the text ends in an open quote
  cases hpending : s.pending with
  | nil =>
    rw [hend hpending, Tokens.atEnd, hs.unclosed]
    cases hunclosed : source.tokens.unclosed? with
    | some position => exact .unclosed rfl hunclosed (hs.hasLost_nil hpending)
    | none =>
      exact .on (fun _ => hunclosed) (not_unterminated_of_ne_fault nofun)
        (hs.ended hpending hunclosed)
  | cons token rest =>
    obtain ⟨hanswer, ht⟩ := hnext token rest hpending
    rcases result with ⟨answer, t⟩
    cases hanswer
    exact .on nofun (not_unterminated_of_ne_fault nofun) ht

/-- A datum needs a token after the pending ones, if the reader does. -/
theorem datum_goes (hs : s.IsOf source) (room : Nat) :
    Goes source (∃ reader, (Reader.State.start room).run s.pending = .starved reader)
      (Answer.of .datum (s.datum room)).1 (Answer.of .datum (s.datum room)).2 := by
  have hreads : Reads source ((Reader.State.start room).run s.pending) (s.datum room) :=
    datumFrom_reads hs (.start room)
  -- from here on only what the stream made of the outcome matters
  generalize (Reader.State.start room).run s.pending = outcome at hreads ⊢
  generalize s.datum room = result at hreads ⊢
  cases hreads with
  | done ht hrest => exact .on nofun (not_unterminated_of_ne_fault nofun) ht
  | refused hclosed ht => exact .on nofun (not_unterminated_of_fault hclosed) ht
  | interrupted htext ht => exact .interrupted nofun htext ht
  | unclosed hunclosed ht => exact .unclosed ⟨_, rfl⟩ hunclosed ht
  | incomplete hclosed he ht =>
    refine .on (fun _ => hclosed) (not_unterminated_of_fault fun position h => ?_) ht
    exact Reader.State.atEnd_ne_unterminated he position (Fault.error.inj h)
  | none hclosed he ht _ =>
    exact .on (fun _ => hclosed) (not_unterminated_of_ne_fault nofun) ht

/-- One datum more, in front of the others. -/
def withDatum (v : Value) :
    Except Fault (List Value) × TokenStream → Except Fault (List Value) × TokenStream
  | (.ok vs, u) => (.ok (v :: vs), u)
  | failure => failure

/-- All data, by the first one. -/
theorem data_eq (room : Nat) (s : TokenStream) :
    s.data room = match s.datum room with
      | (.error fault, t) => (.error fault, t)
      | (.ok none, t) => (.ok [], t)
      | (.ok (some v), t) => withDatum v (t.data room) := by
  rw [data]
  split
  · next h => rw [h]
  · next h => rw [h]
  · next h =>
    rw [h]
    rfl

/-- One datum more does not change where all data lead. -/
theorem Goes.cons {v : Value} {result : Except Fault (List Value) × TokenStream}
    (h : Goes source needs (Answer.of .data result).1 (Answer.of .data result).2) :
    Goes source needs (Answer.of .data (withDatum v result)).1
      (Answer.of .data (withDatum v result)).2 := by
  rcases result with ⟨fault | vs, u⟩
  · exact h
  · cases h with
    | on hneeds _ ht => exact .on hneeds (not_unterminated_of_ne_fault nofun) ht

/-- Where no datum is complete, the tokens run out if they do so in the first datum. -/
theorem runsOut_iff {room : Nat} {tokens : List Token}
    (h : ∀ v rest, (Reader.State.start room).run tokens ≠ .done v rest) :
    (∃ reader, (Reader.State.start room).run tokens = .starved reader) ↔ RunsOut room tokens := by
  constructor
  · rintro ⟨reader, hrun⟩
    exact .now hrun
  · intro hruns
    cases hruns with
    | now hrun => exact ⟨_, hrun⟩
    | later hrun => exact absurd hrun (h _ _)

/-- After a datum they run out if those that are left do. -/
theorem runsOut_rest_iff {room : Nat} {tokens : List Token} {v : Value}
    (h : (Reader.State.start room).run tokens = .done v rest) :
    RunsOut room rest ↔ RunsOut room tokens := by
  refine ⟨.later h, fun hruns => ?_⟩
  cases hruns with
  | now hrun =>
    rw [h] at hrun
    cases hrun
  | later hrun hrest =>
    rw [h] at hrun
    cases hrun
    exact hrest

/-- All data need a token after the pending ones, unless one of them is refused before. -/
theorem data_goes (hs : s.IsOf source) (room : Nat) :
    Goes source (RunsOut room s.pending) (Answer.of .data (s.data room)).1
      (Answer.of .data (s.data room)).2 := by
  induction hlength : s.pending.length using Nat.strongRecOn generalizing s with
  | ind length ih =>
    have hdatum := datum_goes hs room
    have hreads : Reads source ((Reader.State.start room).run s.pending) (s.datum room) :=
      datumFrom_reads hs (.start room)
    -- at least one token is used for a datum, so what is pending gets shorter
    rw [data_eq]
    rcases hresult : s.datum room with ⟨fault | _ | v, t⟩
    · rw [hresult] at hdatum hreads
      refine hdatum.congr (runsOut_iff fun v rest hrun => ?_)
      rw [hrun] at hreads
      cases hreads
    · rw [hresult] at hdatum hreads
      have hdatum := hdatum.congr (runsOut_iff fun v rest hrun => by
        rw [hrun] at hreads
        cases hreads)
      cases hdatum with
      | on hneeds _ ht => exact .on hneeds (not_unterminated_of_ne_fault nofun) ht
    · rw [hresult] at hreads
      generalize hrun : (Reader.State.start room).run s.pending = outcome at hreads
      cases hreads with
      | done ht hrest =>
        subst hrest
        have hlt := Reader.State.length_lt_of_run_done hrun
        rw [hlength] at hlt
        exact ((ih _ hlt ht rfl).congr (runsOut_rest_iff hrun)).cons

/-- Where a step leads. -/
theorem serve_goes (hs : s.IsOf source) (room : Nat) (step : Step) :
    Goes source (step.Needs room s.pending) (s.serve room step).1 (s.serve room step).2 := by
  cases step with
  | peek =>
    refine goes_of_isOf hs (fun h => (at_end h).1) fun token rest h => ?_
    rw [peek_of_cons h]
    exact ⟨rfl, hs.showing h⟩
  | advance =>
    refine goes_of_isOf hs (fun h => (at_end h).2) fun token rest h => ?_
    rw [advance_of_cons h]
    exact ⟨rfl, hs.past h⟩
  | datum => exact datum_goes hs room
  | data => exact data_goes hs room

end Goes

/-- A step at the end comes to nothing and leaves everything as it is. -/
theorem Exhausted.serve (hs : s.Exhausted) (room : Nat) (step : Step) :
    s.serve room step = (step.atEnd, s) := by
  obtain ⟨lexing, used, buffer?, undrawn⟩ := s
  obtain ⟨rfl, rfl⟩ := hs
  have hdatum : datum room ⟨lexing, used, none, ⟨[], none⟩⟩
      = (.ok none, ⟨lexing, used, none, ⟨[], none⟩⟩) := by
    rw [datum, datumFrom_eq]
    rfl
  cases step with
  | peek | advance => rfl
  | datum =>
    rw [TokenStream.serve, hdatum]
    rfl
  | data =>
    rw [TokenStream.serve, data_eq, hdatum]
    rfl

/-- Whatever is asked of a stream that is exhausted, it stays as it is. -/
theorem Exhausted.serveInTurn (hs : s.Exhausted) (room : Nat) (steps : List Step) :
    serveInTurn (TokenStream.serve room) s steps = (steps.map Step.atEnd, s) := by
  induction steps with
  | nil => rfl
  | cons step steps ih =>
    rw [serveInTurn_cons, hs.serve, ih]
    rfl

/-- To have looked at a token makes no difference to any step. -/
theorem serve_peek {token? : Option Token} (h : s.peek = (.ok token?, t)) (room : Nat)
    (step : Step) : t.serve room step = s.serve room step := by
  obtain ⟨hpeek, hadvance⟩ := peek_peek h
  have hdatum : t.datum room = s.datum room := by
    rw [datum, datum, datumFrom_eq, datumFrom_eq, hpeek]
  cases step with
  | peek => rw [serve, hpeek, serve]
  | advance => rw [serve, hadvance, serve]
  | datum => rw [serve, hdatum, serve]
  | data => rw [serve, data_eq, hdatum, serve, data_eq]

/-! ## What is used for an answer -/

/-- The token that is answered, if there is one. -/
def Answer.tokens : Answer → List Token
  | .token token? => token?.toList
  | _ => []

/-- The data that are answered. -/
def Answer.values : Answer → List Value
  | .datum v? => v?.toList
  | .data vs => vs
  | _ => []

/-- What a step has used in the end: looking at a token uses none, and data use the tokens that
    they are written with.  Of data that are refused, nothing is said here. -/
def Step.Uses (room : Nat) (s t : TokenStream) (answer : Answer) : Step → Prop
  | .peek => t.used = s.used
  | .advance => t.used = answer.tokens ++ s.used
  | .datum | .data => (∀ fault, answer ≠ .fault fault) →
    ∃ parts, List.Forall₂ (Datum (room + Room.margin)) parts answer.values ∧
      t.used = parts.flatten.reverse ++ s.used

/-- A datum uses the tokens that it is written with. -/
theorem IsOf.datum_uses (hs : s.IsOf source) {room : Nat} {v? : Option Value}
    (h : s.datum room = (.ok v?, t)) :
    t.IsOf source ∧ ∃ parts, List.Forall₂ (Datum (room + Room.margin)) parts v?.toList ∧
      t.used = parts.flatten.reverse ++ s.used := by
  have hreads : Reads source ((Reader.State.start room).run s.pending) (s.datum room) :=
    datumFrom_reads hs (.start room)
  have hholds := Reader.holds_run room s.pending
  rw [h] at hreads
  generalize hrun : (Reader.State.start room).run s.pending = outcome at hreads hholds
  cases hreads with
  | done ht hrest =>
    -- what is not pending any more is what the reader took, and that is the datum's tokens
    obtain ⟨taken, htaken, hdatum⟩ := hholds
    subst hrest
    refine ⟨ht, [taken], .cons hdatum .nil, ?_⟩
    have htokens : s.used.reverse ++ (taken ++ t.pending) = t.used.reverse ++ t.pending := by
      rw [← htaken, hs.tokens, ht.tokens]
    rw [← List.append_assoc] at htokens
    have hused := congrArg List.reverse (List.append_cancel_right htokens)
    simpa using hused.symm
  | none hclosed he ht hrest =>
    have hnone : Tokens.datum room ⟨s.pending, Option.none⟩
        = (.ok Option.none, ⟨[], Option.none⟩) := by
      rw [Tokens.datum, hrun]
      dsimp only
      rw [he]
    have hnil : s.pending = [] := (Tokens.datum_eq_none_iff.mp hnone).1
    have htokens : s.used.reverse ++ [] = t.used.reverse ++ [] := by
      rw [← hnil, hs.tokens, ← ht.tokens, hrest, hnil]
    refine ⟨ht, [], .nil, ?_⟩
    simpa using htokens.symm

/-- All data are there: none, or a first one and all others. -/
theorem data_ok {room : Nat} {vs : List Value} (h : s.data room = (.ok vs, t)) :
    (vs = [] ∧ s.datum room = (.ok none, t)) ∨ ∃ v others u, vs = v :: others ∧
      s.datum room = (.ok (some v), u) ∧ u.data room = (.ok others, t) := by
  rw [data_eq] at h
  rcases hdatum : s.datum room with ⟨fault | _ | v, u⟩ <;> rw [hdatum] at h
  · cases h
  · cases h
    exact Or.inl ⟨rfl, rfl⟩
  · change withDatum v (u.data room) = _ at h
    rcases hdata : u.data room with ⟨fault | others, w⟩ <;> rw [hdata] at h <;> cases h
    exact Or.inr ⟨v, others, u, rfl, rfl, hdata⟩

/-- All data use the tokens that they are written with. -/
theorem IsOf.data_uses (hs : s.IsOf source) {room : Nat} {vs : List Value}
    (h : s.data room = (.ok vs, t)) : ∃ parts, List.Forall₂ (Datum (room + Room.margin)) parts vs ∧
      t.used = parts.flatten.reverse ++ s.used := by
  induction vs generalizing s with
  | nil =>
    rcases data_ok h with ⟨-, hdatum⟩ | ⟨v, others, u, hvs, -⟩
    · exact (hs.datum_uses hdatum).2
    · cases hvs
  | cons v vs ih =>
    rcases data_ok h with ⟨hvs, -⟩ | ⟨_, _, u, hvs, hdatum, hdata⟩
    · cases hvs
    · cases hvs
      obtain ⟨hu, parts, hparts, hused⟩ := hs.datum_uses hdatum
      obtain ⟨others, hothers, hused'⟩ := ih hu hdata
      refine ⟨parts ++ others, List.rel_append hparts hothers, ?_⟩
      rw [hused', hused, List.flatten_append, List.reverse_append, List.append_assoc]

/-- Each step uses what it should. -/
theorem serve_uses (hs : s.IsOf source) (room : Nat) (step : Step) :
    step.Uses room s (s.serve room step).2 (s.serve room step).1 := by
  cases step with
  | peek | advance =>
    cases hpending : s.pending with
    | nil =>
      obtain ⟨hpeek, hadvance⟩ := at_end hpending
      simp only [Step.Uses, serve, hpeek, hadvance, Tokens.atEnd]
      cases s.undrawn.unclosed? <;> rfl
    | cons token rest =>
      simp only [Step.Uses, serve, peek_of_cons hpending, advance_of_cons hpending]
      rfl
  | datum =>
    -- a datum that fails makes no promise of what it takes
    intro hanswer
    rw [serve] at hanswer ⊢
    rcases hdatum : s.datum room with ⟨fault | v?, t⟩
    · rw [hdatum] at hanswer
      exact absurd rfl (hanswer fault)
    · exact (hs.datum_uses hdatum).2
  | data =>
    intro hanswer
    rw [serve] at hanswer ⊢
    rcases hdata : s.data room with ⟨fault | vs, t⟩
    · rw [hdata] at hanswer
      exact absurd rfl (hanswer fault)
    · exact hs.data_uses hdata

/-! ## One step after the other -/

/-- After any steps the stream is somewhere on its way, or it has been broken by one of them. -/
theorem serveInTurn_isOf (hs : s.IsOf source) (room : Nat) (steps : List Step) :
    let run := serveInTurn (serve room) s steps
    (run.2.IsOf source ∧ ∀ answer ∈ run.1, ¬ answer.IsUnterminated) ∨
      ∃ lost, run.2.HasLost source lost ∧ (∃ answer ∈ run.1, answer.Breaks source) ∧
        (lost = [] ∨ (source.isText = true ∧ .fault .tooDeep ∈ run.1)) := by
  -- a step leads on, or breaks the stream; then the other steps find it at its end
  induction steps generalizing s with
  | nil => exact Or.inl ⟨hs, nofun⟩
  | cons step steps ih =>
    rw [serveInTurn_cons]
    have hgoes := serve_goes hs room step
    rcases hserve : s.serve room step with ⟨answer, t⟩
    rw [hserve] at hgoes
    cases hgoes with
    | on _ hanswer ht =>
      rcases ih ht with ⟨hisOf, hanswers⟩ | ⟨lost, hlost, hbreaks, hwhy⟩
      · exact Or.inl ⟨hisOf, List.forall_mem_cons.mpr ⟨hanswer, hanswers⟩⟩
      · obtain ⟨broken, hmem, hbroken⟩ := hbreaks
        refine Or.inr ⟨lost, hlost, ⟨broken, List.mem_cons_of_mem _ hmem, hbroken⟩, ?_⟩
        exact hwhy.imp_right fun ⟨htext, hdeep⟩ => ⟨htext, List.mem_cons_of_mem _ hdeep⟩
    | unclosed hneeds hunclosed ht =>
      rw [ht.1.serveInTurn]
      exact Or.inr ⟨[], ht, ⟨_, List.mem_cons_self, Or.inl ⟨_, rfl⟩⟩, Or.inl rfl⟩
    | @interrupted lost _ hneeds htext ht =>
      rw [ht.1.serveInTurn]
      exact Or.inr ⟨lost, ht, ⟨_, List.mem_cons_self, Or.inr ⟨htext, rfl⟩⟩,
        Or.inr ⟨htext, List.mem_cons_self⟩⟩

/-- A step that only comes to the end of a stream ends in no fault. -/
theorem Step.atEnd_ne_fault (step : Step) (fault : Fault) : step.atEnd ≠ .fault fault := by
  cases step <;> nofun

/-- Where every string is closed, none is met that is not. -/
theorem not_unterminated_of_closed (hs : s.IsOf source) (hclosed : source.tokens.unclosed? = none)
    (room : Nat) (steps : List Step) :
    ∀ answer ∈ (serveInTurn (serve room) s steps).1, ¬ answer.IsUnterminated := by
  induction steps generalizing s with
  | nil => exact nofun
  | cons step steps ih =>
    rw [serveInTurn_cons]
    have hgoes := serve_goes hs room step
    rcases hserve : s.serve room step with ⟨answer, t⟩
    rw [hserve] at hgoes
    cases hgoes with
    | on _ hanswer ht => exact List.forall_mem_cons.mpr ⟨hanswer, ih ht⟩
    | unclosed _ hunclosed _ =>
      rw [hclosed] at hunclosed
      cases hunclosed
    -- the stream has ended for good, and at its end the answers are all of one kind
    | interrupted _ _ ht =>
      rw [ht.1.serveInTurn]
      refine List.forall_mem_cons.mpr ⟨nofun, fun answer hmem hunterminated => ?_⟩
      obtain ⟨position, rfl⟩ := hunterminated
      obtain ⟨later, -, hlater⟩ := List.mem_map.mp hmem
      exact later.atEnd_ne_fault _ hlater

/-! ## More looks -/

/-- The steps with a look at the next token wherever there is nothing. -/
def looking (plan : List (Option Step)) : List Step := plan.map fun step? => step?.getD .peek

/-- The answers without those to the looks that were put in. -/
def answered (plan : List (Option Step)) (answers : List Answer) : List Answer :=
  (plan.zip answers).filterMap fun (step?, answer) => step?.map fun _ => answer

/-- The first step, with or without having looked before, leads to the same. -/
theorem serveInTurn_peek {token? : Option Token} (h : s.peek = (.ok token?, t)) (room : Nat)
    (steps : List Step) :
    (serveInTurn (serve room) t steps).1 = (serveInTurn (serve room) s steps).1 := by
  cases steps with
  | nil => rfl
  | cons step steps => rw [serveInTurn_cons, serveInTurn_cons, serve_peek h]

/-- The only thing that a look can meet. -/
theorem peek_fault {fault : Fault} (h : s.peek = (.error fault, t)) :
    (Answer.fault fault).IsUnterminated := by
  cases hpending : s.pending with
  | nil =>
    rw [(at_end hpending).1, Tokens.atEnd] at h
    cases hunclosed : s.undrawn.unclosed? with
    | some position =>
      rw [hunclosed] at h
      cases h
      exact ⟨position, rfl⟩
    | none =>
      rw [hunclosed] at h
      cases h
  | cons token rest =>
    rw [peek_of_cons hpending] at h
    cases h

/-- Looks that are put in do not change the other answers, unless one meets a string that nothing
    closes. -/
theorem answered_looking (room : Nat) (s : TokenStream) (plan : List (Option Step))
    (h : ∀ answer ∈ (serveInTurn (serve room) s (looking plan)).1, ¬ answer.IsUnterminated) :
    answered plan (serveInTurn (serve room) s (looking plan)).1
      = (serveInTurn (serve room) s (plan.filterMap id)).1 := by
  -- a look that was put in leaves a stream for which every step answers as it did before
  induction plan generalizing s with
  | nil => rfl
  | cons step? plan ih =>
    cases step? with
    | some step =>
      obtain ⟨-, hplan⟩ := List.forall_mem_cons.mp h
      exact congrArg _ (ih _ hplan)
    | none =>
      obtain ⟨hpeek, hplan⟩ := List.forall_mem_cons.mp h
      rcases hs : s.peek with ⟨fault | token?, t⟩
      · have hserve : s.serve room .peek = (.fault fault, t) := by
          rw [serve, hs]
          rfl
        change ¬ (s.serve room .peek).1.IsUnterminated at hpeek
        rw [hserve] at hpeek
        exact absurd (peek_fault hs) hpeek
      · have hserve : s.serve room .peek = (.token token?, t) := by
          rw [serve, hs]
          rfl
        change ∀ answer ∈ (serveInTurn (serve room) (s.serve room .peek).2 (looking plan)).1, _
          at hplan
        rw [hserve] at hplan
        show answered (none :: plan) (serveInTurn (serve room) s (.peek :: looking plan)).1
          = (serveInTurn (serve room) s (plan.filterMap id)).1
        rw [serveInTurn_cons, hserve, ← serveInTurn_peek hs]
        exact ih t hplan

/-- A stream that has lost what tells of an open string is not on its way any more. -/
theorem HasLost.not_isOf {lost : List Token} (h : s.HasLost source lost)
    (hsome : source.tokens.unclosed?.isSome = true) : ¬ s.IsOf source := by
  intro hs
  have hunclosed := hs.unclosed
  rw [h.1.2] at hunclosed
  rw [← hunclosed] at hsome
  cases hsome

/-- What holds of a step of a stream. -/
structure Step.Lawful (room : Nat) (source : TokenSource) (s : TokenStream) (step : Step) :
    Prop where
  /-- It uses what its answer is made of. -/
  uses : step.Uses room s (s.serve room step).2 (s.serve room step).1
  /-- It meets a string that nothing closes if and only if there is one, the stream is still on its
      way through the source, and the step needs a token there. -/
  unterminated : (s.serve room step).1.IsUnterminated ↔ source.tokens.unclosed?.isSome ∧
    s.IsOf source ∧ step.Needs room s.pending
  /-- If it meets such a string, or leads off the way through the source, later steps are at the end
      of the stream. -/
  breaks : (s.serve room step).1.IsUnterminated ∨ ¬ (s.serve room step).2.IsOf source →
    ∀ later, (serveInTurn (serve room) (s.serve room step).2 later).1 = later.map Step.atEnd

/-- The laws of a step that is made on the way. -/
theorem IsOf.lawful (hs : s.IsOf source) (room : Nat) (step : Step) :
    step.Lawful room source s := by
  have hgoes := serve_goes hs room step
  -- an answer is what the tokens make it, an open quote shows only at the end, and after a break no
  -- token comes any more
  refine ⟨serve_uses hs room step, ?_, fun hbreaks later => ?_⟩
  · generalize (s.serve room step).1 = answer at hgoes
    cases hgoes with
    | on hneeds hanswer ht =>
      refine ⟨fun h => absurd h hanswer, fun ⟨hsome, _, h⟩ => ?_⟩
      rw [hneeds h] at hsome
      cases hsome
    | unclosed hneeds hunclosed ht =>
      refine ⟨fun _ => ⟨?_, hs, hneeds⟩, fun _ => ⟨_, rfl⟩⟩
      rw [hunclosed]
      rfl
    | interrupted hneeds htext ht =>
      exact ⟨fun ⟨_, h⟩ => (nomatch h), fun ⟨_, _, h⟩ => absurd h hneeds⟩
  · generalize (s.serve room step).1 = answer at hgoes hbreaks
    generalize (s.serve room step).2 = t at hgoes hbreaks ⊢
    cases hgoes with
    | on hneeds hanswer ht => exact absurd (hbreaks.resolve_left hanswer) (not_not_intro ht)
    | unclosed hneeds hunclosed ht => rw [ht.1.serveInTurn]
    | interrupted hneeds htext ht => rw [ht.1.serveInTurn]

/-- They hold where the stream is broken, too. -/
theorem HasLost.lawful {lost : List Token} (hs : s.HasLost source lost) (room : Nat)
    (step : Step) : step.Lawful room source s := by
  have hserve := hs.1.serve room step
  refine ⟨?_, ⟨?_, fun ⟨hsome, h, _⟩ => absurd h (hs.not_isOf hsome)⟩, fun _ later => ?_⟩
  · rw [hserve]
    cases step with
    | peek | advance => rfl
    | datum | data => exact fun _ => ⟨[], .nil, rfl⟩
  · rw [hserve]
    exact fun ⟨_, h⟩ => absurd h (step.atEnd_ne_fault _)
  · rw [hserve, hs.1.serveInTurn]

/-- A stream neither loses nor repeats a token, whatever is done with it, step after step.

    The tokens that have been used, then the one that has been drawn, then those that have not
    been drawn, are all tokens of the source, in order, as long as the stream is on its way; and
    then no step has met a string that nothing closes.  A stream is only off its way after a step
    that met such a string, or after a datum of a text that was nested too deep; only the second
    loses tokens, which are the last ones, and in both cases the stream is at its end.  Whatever the
    next step is, it uses what its answer is made of.  It meets the string that nothing closes, if
    there is one, just if the stream is on its way and the step needs a token there; and all steps
    after that find the stream at its end, as they do once it is off its way.  To look at a token
    between these steps does not change any of their answers, unless a look meets the string. -/
theorem tokens_neither_lost_nor_repeated (room : Nat) (source : TokenSource) (steps : List Step) :
    let run := serveInTurn (serve room) source.stream steps
    (run.2.IsOf source ∧ (∀ answer ∈ run.1, ¬ answer.IsUnterminated) ∨
      ∃ lost, run.2.HasLost source lost ∧ (∃ answer ∈ run.1, answer.Breaks source) ∧
        (lost = [] ∨ source.isText = true ∧ .fault .tooDeep ∈ run.1)) ∧
    (∀ step : Step, step.Lawful room source run.2) ∧
    ∀ plan : List (Option Step), plan.filterMap id = steps →
      let looked := serveInTurn (serve room) source.stream (looking plan)
      (source.tokens.unclosed? = none ∨ ∀ answer ∈ looked.1, ¬ answer.IsUnterminated) →
      answered plan looked.1 = run.1 := by
  intro run
  have hrun := serveInTurn_isOf (stream_isOf source) room steps
  refine ⟨hrun, fun step => ?_, ?_⟩
  -- whether some tokens were lost or not, the laws hold of the next step
  · rcases hrun with ⟨hisOf, -⟩ | ⟨lost, hlost, -⟩
    · exact hisOf.lawful room step
    · exact hlost.lawful room step
  · rintro plan rfl looked hlooks
    refine answered_looking room source.stream plan ?_
    -- a look is harmless where no look can meet the open quote
    rcases hlooks with hclosed | hlooks
    · exact not_unterminated_of_closed (stream_isOf source) hclosed room (looking plan)
    · exact hlooks

/-- Parentheses one after the other are as many tokens. -/
theorem ofText_openings (count : Nat) :
    Tokens.ofText (List.replicate count '(') = ⟨List.replicate count ⟨.opening, "("⟩, none⟩ := by
  have hlexer : ∀ position tokens, (List.replicate count '(').foldl Lexer.State.step
      ⟨position, .gap, tokens⟩
        = ⟨position + count, .gap, List.replicate count ⟨.opening, "("⟩ ++ tokens⟩ := by
    induction count with
    | zero => exact fun _ _ => rfl
    | succ count ih =>
      intro position tokens
      have hstep : Lexer.State.step ⟨position, .gap, tokens⟩ '('
          = ⟨position + 1, .gap, ⟨.opening, "("⟩ :: tokens⟩ := rfl
      rw [List.replicate_succ, List.foldl_cons, hstep, ih, List.replicate_succ', List.append_assoc,
        Nat.add_assoc, Nat.add_comm 1]
      rfl
  rw [Tokens.ofText, hlexer]
  show (⟨(List.replicate count _ ++ []).reverse, none⟩ : Tokens) = _
  rw [List.append_nil, List.reverse_replicate]

/-- Before the first token is used, all that the source holds are pending. -/
theorem stream_pending (source : TokenSource) : source.stream.pending = source.tokens.list := by
  have hused : source.stream.used = [] := by cases source <;> rfl
  simpa only [hused, List.reverse_nil, List.nil_append] using (stream_isOf source).tokens

/-- Where more lists are opened than there is room for, those that are left are lost. -/
theorem datumFrom_openings (htext : source.isText = true) {more room : Nat} (hs : s.IsOf source)
    (hpending : s.pending = List.replicate (room + 1 + more) ⟨.opening, "("⟩)
    (contexts : List Reader.Context) :
    ∃ t, s.datumFrom (.ready room contexts) = (.error .tooDeep, t) ∧
      t.HasLost source (List.replicate more ⟨.opening, "("⟩) := by
  induction room generalizing s contexts with
  -- no room is left for one more list: the stream is interrupted, and what it holds is lost
  | zero =>
    rw [Nat.zero_add, Nat.add_comm, List.replicate_succ] at hpending
    have hlost := hs.interrupt hpending
    rw [if_pos htext] at hlost
    refine ⟨_, ?_, hlost⟩
    rw [datumFrom_eq, peek_of_cons hpending]
    rfl
  | succ room ih =>
    rw [Nat.add_right_comm (room + 1), List.replicate_succ] at hpending
    -- one list more is open, in a room that is smaller by one
    obtain ⟨t, ht, hlost⟩ := ih (hs.past hpending) rfl (.list [] :: contexts)
    refine ⟨t, ?_, hlost⟩
    rw [datumFrom_eq, peek_of_cons hpending]
    exact ht

/-- Twenty thousand lists are opened: when reading them as one datum has failed, there are no more
    tokens, although almost half of them have never been used. -/
theorem tokens_lost_by_nesting :
    let source := TokenSource.text (String.ofList (List.replicate 20000 '('))
    let run := serveInTurn (serve Room.standard) source.stream [.datum, .peek]
    run.1 = [.fault .tooDeep, .token none] ∧ source.tokens.list.length = 20000 ∧
      run.2.used.length = 10017 ∧ run.2.used.reverse ++ run.2.pending ≠ source.tokens.list := by
  intro source run
  -- one token more than the room and the margin let pass, and 9983 that nobody will see
  have htokens : source.tokens.list
      = List.replicate (Room.standard + Room.margin + 1 + 9983) ⟨.opening, "("⟩ := by
    show (Tokens.ofText (String.ofList _).toList).list = _
    rw [String.toList_ofList, ofText_openings]
    rfl
  obtain ⟨t, hdatum, hend, hlost⟩ :=
    datumFrom_openings rfl (stream_isOf source) ((stream_pending source).trans htokens) []
  have hrun : run = ([.fault .tooDeep, .token none], t) := by
    have hserve : source.stream.serve Room.standard .datum = (.fault .tooDeep, t) := by
      rw [serve, datum, Reader.State.start, hdatum]
      rfl
    show serveInTurn (serve Room.standard) source.stream [.datum, .peek] = _
    rw [serveInTurn_cons, hserve, hend.serveInTurn]
    rfl
  have hlength : source.tokens.list.length = 20000 := by
    rw [htokens, List.length_replicate]
    rfl
  -- what was not lost was used
  have hused : t.used.length = 10017 := by
    have hcount := congrArg List.length hlost
    rw [hlength, List.length_append, List.length_reverse, List.length_replicate] at hcount
    omega
  have hnone : t.pending = [] := by
    rw [pending, hend.1, hend.2]
    rfl
  rw [hrun]
  refine ⟨rfl, hlength, hused, fun hall => ?_⟩
  -- 10017 tokens cannot be 20000
  have hcount := congrArg List.length hall
  rw [hnone, hlength, List.append_nil, List.length_reverse, hused] at hcount
  omega

end TokenStream

end SmallScheme
