/-
  THE BUNDLED MODULES, read.

  The library is two texts.  This is what they say: the functions that they define, one by one,
  and that reading the texts gives the definitions of these functions and nothing else.

  1. **The code of the functions.**  Each of them is a `Definition`: a name, its formals and a
     body.  The bodies are written with three abbreviations, for a list that begins with a name,
     for a `cond`, and for a function of one variable.

  2. **The texts** (`lists_madeOf`, `numbers_madeOf`).  Reading is a computation, and here it is
     done: the forms of the texts are those of the definitions.

  3. **Calls of the functions** (`ComesTo.call_one`, `ComesTo.call_two`).  In any store that has
     the names of a module from that module, and where no frame binds them, a call with quoted
     values comes to what the body comes to with these values in its frame.

  4. **A system that has loaded one of the modules** (`State.withModule`), so that what is said of
     such systems is said of something.
-/
import SmallScheme.Library
import SmallScheme.Proofs.Definitions
import SmallScheme.Proofs.Execution
import SmallScheme.Proofs.Reachable

namespace SmallScheme

namespace Library

/-! ## The code of the functions -/

/-- A list that begins with a name. -/
def app (name : String) (operands : List Value) : Value := .ofItems (.symbol name :: operands)

/-- A `cond` form with questions, their answers, and an answer for everything else. -/
def choose (clauses : List (Value × Value)) (otherwise : Value) : Value :=
  app "cond" (clauses.map (fun (question, answer) => .ofItems [question, answer])
    ++ [app "else" [otherwise]])

/-- `(name x)`. -/
def of (name x : String) : Value := app name [.symbol x]

/-- Is it a list of atoms? -/
def isLat : Definition where
  name := "lat?"
  formals := ["l"]
  body := choose [(of "null?" "l", .bool true),
      (app "atom?" [of "car" "l"], app "lat?" [of "cdr" "l"])]
    (.bool false)

/-- Is it one of the atoms of a list? -/
def isMember : Definition where
  name := "member?"
  formals := ["a", "lat"]
  body := choose [(of "null?" "lat", .bool false),
      (app "eq?" [of "car" "lat", .symbol "a"], .bool true)]
    (app "member?" [.symbol "a", of "cdr" "lat"])

/-- A list without the first occurrence of an atom. -/
def rember : Definition where
  name := "rember"
  formals := ["a", "lat"]
  body := choose [(of "null?" "lat", .quoteOf (.ofItems [])),
      (app "eq?" [of "car" "lat", .symbol "a"], of "cdr" "lat")]
    (app "cons" [of "car" "lat", app "rember" [.symbol "a", of "cdr" "lat"]])

/-- The first items of lists. -/
def firsts : Definition where
  name := "firsts"
  formals := ["l"]
  body := choose [(of "null?" "l", .quoteOf (.ofItems []))]
    (app "cons" [app "car" [of "car" "l"], app "firsts" [of "cdr" "l"]])

/-- How many items a list has. -/
def length : Definition where
  name := "length"
  formals := ["lat"]
  body := choose [(of "null?" "lat", .int 0)] (app "add1" [app "length" [of "cdr" "lat"]])

/-- Two lists, one after the other. -/
def append : Definition where
  name := "append"
  formals := ["l1", "l2"]
  body := choose [(of "null?" "l1", .symbol "l2")]
    (app "cons" [of "car" "l1", app "append" [of "cdr" "l1", .symbol "l2"]])

/-- A function that counts its second argument down to zero, and does a step with the first one
    each time. -/
def counting (name step : String) : Definition where
  name := name
  formals := ["n", "m"]
  body := choose [(of "zero?" "m", .symbol "n")] (app name [of step "n", of "sub1" "m"])

/-- Addition, by counting. -/
def plus : Definition := counting "o+" "add1"

/-- Subtraction, by counting. -/
def minus : Definition := counting "o-" "sub1"

/-- The sum of a list of numbers. -/
def addtup : Definition where
  name := "addtup"
  formals := ["tup"]
  body := choose [(of "null?" "tup", .int 0)]
    (app "+" [of "car" "tup", app "addtup" [of "cdr" "tup"]])

/-- Powers, by repeated multiplication. -/
def expt : Definition where
  name := "expt"
  formals := ["n", "m"]
  body := choose [(of "zero?" "m", .int 1)]
    (app "*" [.symbol "n", app "expt" [.symbol "n", of "sub1" "m"]])

/-- What the module on lists defines. -/
def listFunctions : List Definition := [isLat, isMember, rember, firsts, length, append]

/-- What the module on numbers defines. -/
def numberFunctions : List Definition := [plus, minus, addtup, expt]

/-! ## The texts -/

/-- To read a text is to read its characters. -/
theorem madeOf_chars {text : String} {cs : List Char} {depth : Nat} {ds : List Definition}
    (htext : text = String.ofList cs)
    (hforms : Reader.State.formsOn depth (.start depth) (Tokens.ofText cs).list
      = ds.map Definition.form)
    (haccepted : (Script.ofTokens depth (Tokens.ofText cs)).fault? = none)
    (hnames : ∀ d ∈ ds, Primitive.ofName? d.name = none)
    (hdistinct : (ds.map Definition.name).Nodup) : Script.MadeOf text depth ds := by
  have hread : Script.ofText depth text = Script.ofTokens depth (Tokens.ofText cs) := by
    rw [htext, Script.ofText, String.toList_ofList]
  exact {
    forms := by rw [hread, Script.forms_ofTokens, hforms]
    accepted := by rw [hread, haccepted]
    names := hnames
    distinct := hdistinct }

-- the texts are cut into tokens one character after the other
set_option maxRecDepth 20000 in
/-- Reading the module on lists gives its definitions. -/
theorem lists_madeOf : Script.MadeOf lists 10 listFunctions := by
  refine madeOf_chars rfl rfl ?_ (by decide) (by decide)
  rw [Script.fault?_ofTokens]
  rfl

set_option maxRecDepth 20000 in
/-- Reading the module on numbers gives its definitions. -/
theorem numbers_madeOf : Script.MadeOf numbers 10 numberFunctions := by
  refine madeOf_chars rfl rfl ?_ (by decide) (by decide)
  rw [Script.fault?_ofTokens]
  rfl

end Library

/-! ## Calls of the functions -/

/-- A call of a function by its name, with quoted values for the operands. -/
def Value.callOf (name : String) (args : List Value) : Value :=
  .ofItems (.symbol name :: args.map .quoteOf)

namespace Eval

/-- In this environment the name stands for what is defined at the top level. -/
structure TopLevel (name : String) (env : Env) : Prop where
  primitive : Primitive.ofName? name = none
  keyword : Keyword.ofName? name = none
  env : env.lookup? name = none

variable {loader? : Option Loader} {s : State} {env : Env} {good : Except Fault Value → Prop}

/-- Where a store has the names of a module from that module, and no frame binds them, they stand
    for the functions of the module. -/
theorem TopLevel.of_module {source : String} {depth : Nat} {ds : List Definition}
    (hmade : Script.MadeOf source depth ds) (hkeyword : ∀ d ∈ ds, Keyword.ofName? d.name = none)
    (hstore : ∀ name ∈ ds.map Definition.name, s.store.HasFrom source name)
    (henv : ∀ name ∈ ds.map Definition.name, env.lookup? name = none) {d : Definition}
    (hd : d ∈ ds) : TopLevel d.name env ∧ s.store.Binds d := by
  have hname : d.name ∈ ds.map Definition.name := List.mem_map_of_mem hd
  exact ⟨⟨hmade.names d hd, hkeyword d hd, henv _ hname⟩, (hstore _ hname).binds hmade hd⟩

/-- A call of a function of one parameter. -/
theorem Ends.call_one (d : Definition) {next : Nat} {origin : Origin} {x : String} {arg : Value}
    {P : Value → Prop} (hname : TopLevel d.name env) (hformals : d.formals = [x])
    (hd : s.store.get? d.name = some (d.function next)) (harg : Yields loader? s arg env P)
    (hbody : ∀ v frame, P v →
      Ends loader? s (d.body.stamp next).1 (.frame frame [x] [v] .empty) good) :
    Ends loader? s (.list origin [.symbol d.name, arg]) env good := by
  rw [Definition.function, hformals] at hd
  refine Ends.function (A := fun outcome => ∃ v, outcome = .ok [v] ∧ P v) hname.primitive
    hname.keyword hname.env hd (Arrive.value harg fun v hv => Arrive.nil ⟨v, rfl, hv⟩) ?_ ?_
  · rintro vs ⟨v, hout, hv⟩
    cases hout
    exact ⟨rfl, fun frame => hbody v frame hv⟩
  · rintro fault ⟨v, hout, -⟩
    cases hout

/-- A call of a function of two parameters. -/
theorem Ends.call_two (d : Definition) {next : Nat} {origin : Origin} {x y : String}
    {first second : Value} {P Q : Value → Prop} (hname : TopLevel d.name env)
    (hformals : d.formals = [x, y]) (hd : s.store.get? d.name = some (d.function next))
    (hfirst : Yields loader? s first env P) (hsecond : Yields loader? s second env Q)
    (hbody : ∀ v w frame, P v → Q w →
      Ends loader? s (d.body.stamp next).1 (.frame frame [x, y] [v, w] .empty) good) :
    Ends loader? s (.list origin [.symbol d.name, first, second]) env good := by
  rw [Definition.function, hformals] at hd
  refine Ends.function (A := fun outcome => ∃ v w, outcome = .ok [v, w] ∧ P v ∧ Q w)
    hname.primitive hname.keyword hname.env hd ?_ ?_ ?_
  · exact Arrive.value hfirst fun v hv => Arrive.value hsecond fun w hw =>
      Arrive.nil ⟨v, w, rfl, hv, hw⟩
  · rintro vs ⟨v, w, hout, hv, hw⟩
    cases hout
    exact ⟨rfl, fun frame => hbody v w frame hv hw⟩
  · rintro fault ⟨v, w, hout, -⟩
    cases hout

/-- A quoted value. -/
theorem Yields.quoteOf {v : Value} (hv : v ≠ .quit) :
    Yields loader? s (.quoteOf v) env (· = v) :=
  Ends.yields (Ends.quote .unknown rfl) hv

/-- A call with one quoted value, by the evaluator. -/
theorem ComesTo.call_one {d : Definition} {x : String} {v : Value} (hname : TopLevel d.name env)
    (hformals : d.formals = [x]) (hd : s.store.Binds d) (hv : v ≠ .quit)
    (hlimit : ∀ fault, good (.error fault) → fault.isLimit = false)
    (hbody : ∀ next frame, s.store.get? d.name = some (d.function next) →
      Ends loader? s (d.body.stamp next).1 (.frame frame [x] [v] .empty) good) :
    ComesTo loader? (.callOf d.name [v]) env s good := by
  obtain ⟨next, hnext⟩ := hd
  refine Ends.comesTo (Ends.call_one d hname hformals hnext (Yields.quoteOf hv) ?_) hlimit
  rintro _ frame rfl
  exact hbody next frame hnext

/-- A call with two quoted values, by the evaluator. -/
theorem ComesTo.call_two {d : Definition} {x y : String} {v w : Value}
    (hname : TopLevel d.name env) (hformals : d.formals = [x, y]) (hd : s.store.Binds d)
    (hv : v ≠ .quit) (hw : w ≠ .quit)
    (hlimit : ∀ fault, good (.error fault) → fault.isLimit = false)
    (hbody : ∀ next frame, s.store.get? d.name = some (d.function next) →
      Ends loader? s (d.body.stamp next).1 (.frame frame [x, y] [v, w] .empty) good) :
    ComesTo loader? (.callOf d.name [v, w]) env s good := by
  obtain ⟨next, hnext⟩ := hd
  refine Ends.comesTo (Ends.call_two d hname hformals hnext (Yields.quoteOf hv)
    (Yields.quoteOf hw) ?_) hlimit
  rintro _ _ frame rfl rfl
  exact hbody next frame hnext

end Eval

/-! ## A system that has loaded one of the modules -/

/-- The characters are ASCII, and none is a carriage return. -/
def Text.IsPlain (cs : List Char) : Prop := ∀ c ∈ cs, c.toNat < 128 ∧ c ≠ '\r'

/-- Without carriage returns there is nothing to unify. -/
theorem Text.unifyNewlines_of_isPlain {cs : List Char} (h : Text.IsPlain cs) :
    Text.unifyNewlines cs = cs := by
  induction cs with
  | nil => rfl
  | cons c cs ih =>
    obtain ⟨⟨-, hc⟩, hcs⟩ := List.forall_mem_cons.mp h
    rw [Text.unifyNewlines, ih hcs]
    · exact fun _ h => absurd h hc
    · exact fun h => absurd h hc

/-- ASCII is its own UTF-8. -/
theorem Text.Utf8.decode_ascii {cs : List Char} (h : Text.IsPlain cs) :
    Text.Utf8.decode (cs.map fun c => UInt8.ofNat c.toNat) = .ok cs := by
  have hbytes : ∀ (cs : List Char) (d : Decoder), d.inside = none → Text.IsPlain cs →
      (cs.map fun c => UInt8.ofNat c.toNat).foldlM Decoder.step d
        = .ok ⟨d.position + cs.length, cs.reverse ++ d.decoded, none⟩ := by
    intro cs
    induction cs with
    | nil =>
      rintro ⟨position, decoded, inside⟩ rfl -
      rfl
    | cons c cs ih =>
      rintro ⟨position, decoded, inside⟩ rfl h
      obtain ⟨⟨hc, -⟩, hcs⟩ := List.forall_mem_cons.mp h
      have hbyte : (UInt8.ofNat c.toNat).toNat = c.toNat := by
        rw [UInt8.toNat_ofNat']
        omega
      have hstep : Decoder.step ⟨position, decoded, none⟩ (UInt8.ofNat c.toNat)
          = .ok ⟨position + 1, c :: decoded, none⟩ := by
        simp only [Decoder.step, hbyte, hc, if_true, Char.ofNat_toNat]
      rw [List.map_cons, List.foldlM_cons, hstep]
      show List.foldlM Decoder.step _ _ = _
      rw [ih _ rfl hcs]
      simp only [List.length_cons, List.reverse_cons, List.append_assoc, List.cons_append,
        List.nil_append, Nat.add_assoc, Nat.add_comm 1]
  rw [Text.Utf8.decode, hbytes cs _ rfl h]
  simp [Decoder.finish, bind, Except.bind]

/-- Plainness is a matter of computation. -/
theorem Text.isPlain_of_chars {text : String} {cs : List Char} (htext : text = String.ofList cs)
    (h : (cs.all fun c => c.toNat < 128 && c ≠ '\r') = true) : Text.IsPlain text.toList := by
  rw [htext, String.toList_ofList]
  intro c hc
  simpa using List.all_eq_true.mp h c hc

set_option maxRecDepth 20000 in
/-- The module on lists is plain, -/
theorem Library.lists_isPlain : Text.IsPlain Library.lists.toList := Text.isPlain_of_chars rfl rfl

set_option maxRecDepth 20000 in
/-- and so is the one on numbers. -/
theorem Library.numbers_isPlain : Text.IsPlain Library.numbers.toList :=
  Text.isPlain_of_chars rfl rfl

/-- A loader for a single file `/m.scm` with this text, in ASCII. -/
def Loader.holding (source : String) : Loader :=
  ⟨[⟨.root, []⟩], ⟨[], [(["m.scm"], source.toList.map fun c => UInt8.ofNat c.toNat)]⟩, []⟩

/-- The state of a fresh system that has loaded `/m.scm`. -/
def State.withModule (source : String) : State :=
  ((Loader.holding source).loadPath (Eval.within (some (.holding source)) 1000 1000)
    ⟨.root, ["m.scm"]⟩).stateAfter .initial

/-- A text in ASCII is read as it was written. -/
theorem Loader.text_of_isPlain {loader : Loader} {path : Path} {source : String}
    (h : Text.IsPlain source.toList)
    (hbytes : loader.bytes path = .ok (source.toList.map fun c => UInt8.ofNat c.toNat)) :
    loader.text path = .ok source := by
  rw [Loader.text, hbytes]
  dsimp only
  rw [Text.Utf8.decode_ascii h]
  dsimp only
  rw [Text.unifyNewlines_of_isPlain h, String.ofList_toList]

/-- The text of that file. -/
theorem Loader.text_holding {source : String} (h : Text.IsPlain source.toList) :
    (Loader.holding source).text ((Loader.holding source).absolute ⟨.root, ["m.scm"]⟩)
      = .ok source :=
  Loader.text_of_isPlain h rfl

/-- In that state the names are those of the module. -/
theorem State.withModule_hasFrom {source : String} {depth : Nat} {ds : List Definition}
    (h : Script.MadeOf source depth ds) (hdepth : depth ≤ 100)
    (hplain : Text.IsPlain source.toList) (name : String) :
    (State.withModule source).store.HasFrom source name := by
  let loader := Loader.holding source
  have htext := Loader.text_holding hplain
  have hroom : depth + 7 ≤ 107 := by omega
  obtain ⟨t, ht, -⟩ := Loader.loadPath_definitions (some loader) h
    (show (⟨.root, ["m.scm"]⟩ : Path).hasNull = false from rfl)
    (show loader.absolute ⟨.root, ["m.scm"]⟩ ∉ State.initial.loading from nofun) htext hroom
  have hwithin : Run.Within (loader.loadPath (Eval.directly (some loader) 107) ⟨.root, ["m.scm"]⟩)
      (loader.loadPath (Eval.within (some loader) 1000 1000) ⟨.root, ["m.scm"]⟩) :=
    Loader.loadPath_within_steps (by decide) (by decide)
  have hload := (hwithin .initial (by rw [ht]; trivial)).trans ht
  refine ⟨loader, 1000, 1000, ⟨.root, ["m.scm"]⟩, .initial, t, htext, hload, ?_⟩
  rw [State.withModule, Run.stateAfter, hload]

end SmallScheme
