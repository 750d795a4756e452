/-
  INTERLEAVING: interpreters side by side do not get in each other's way.

  A session has many interpreters, and the steps that they are asked for come in any order.  Two of
  them may share a store; nothing else is shared but the record of events.  What an interpreter
  keeps to itself is the list of its loader, from one step to the next: so a list that is not
  cleared when a step fails would be seen by the next one.  `Session.Kept` is a session in which
  every loader keeps its list in this way.

  Structure:
    1. What a step may be (`Request`), how a session serves one and many of them (`serve`,
       `serveAll`), which of them are on a store (`isOn`, `tasks`) and what is seen of their
       answers there (`seenOn`).
    2. A single step.  However it ends, the list of its loader is empty again, and no run looks at
       the record of events (`Run.unrecorded`).  So what it comes to is a function of its
       interpreter and of what is in the store (`Interpreter.Request.effect`).
    3. A step of a session: it has this effect on the store of its member (`serve_of_member`), and
       a session that keeps the lists does just the same (`Kept.Idle.serve`).
    4. Many steps, by induction: all that a store goes through is what is asked for on it, one
       after the other (`Session.serveAll_on`), whoever does it (`serveAll_of_reassigned`).
    5. The headline puts these together.

  That runs do not look at the record is not proved anew.  It is a case of a file that no run can
  notice (see the module on unnoticed files), for a path that nothing resolves to.
-/
import SmallScheme.Session
import SmallScheme.Proofs.Circularity
import SmallScheme.Proofs.Unnoticed

namespace SmallScheme

/-! ## What a step may be -/

/-- What an interpreter is asked for: to evaluate a text or to load a file. -/
inductive Interpreter.Request where
  | eval (source : String)
  | load (path : Path)

/-- The run of an interpreter that does what it is asked for. -/
def Interpreter.Request.run (request : Request) (i : Interpreter) : Run Value :=
  match request with
  | .eval source => i.eval source
  | .load path => i.loadFile path

/-- The steps of a machine, one after the other, with what each of them comes to. -/
def serveInTurn {σ ρ ω : Type} (serve : σ → ρ → ω × σ) : σ → List ρ → List ω × σ
  | s, [] => ([], s)
  | s, r :: rs =>
    let (answer, t) := serve s r
    let (answers, u) := serveInTurn serve t rs
    (answer :: answers, u)

/-- The first step, and then the others. -/
theorem serveInTurn_cons {σ ρ ω : Type} (serve : σ → ρ → ω × σ) (s : σ) (r : ρ) (rs : List ρ) :
    serveInTurn serve s (r :: rs) = ((serve s r).1 :: (serveInTurn serve (serve s r).2 rs).1,
      (serveInTurn serve (serve s r).2 rs).2) := rfl

namespace Session

/-- A step of a session: which of its members is asked for what. -/
structure Request where
  member : Nat
  asked : Interpreter.Request

/-- What a step comes to, if its member is there. -/
abbrev Answer := Option (Outcome Value)

/-- The running session does a step. -/
def serve (s : Session) (r : Request) : Answer × Session := s.step r.member r.asked.run

/-- The running session does steps one after the other. -/
def serveAll (s : Session) (rs : List Request) : List Answer × Session := serveInTurn serve s rs

/-- What is in a store. -/
def memory (s : Session) (store : Nat) : Memory := s.memories.getD store .empty

/-- A session whose loaders keep their lists from one step to the next. -/
structure Kept where
  session : Session
  /-- The files that the loader of each member has in its list. -/
  lists : Nat → List Path

namespace Kept

/-- No loader has a file in its list. -/
def Idle (k : Kept) : Prop := ∀ member, k.lists member = []

/-- A step.  The loader of its member has the list that it had when the member's last step ended,
    and keeps what it has in the end; that of any other member stays as it is. -/
def serve (k : Kept) (r : Request) : Answer × Kept :=
  match k.session.members[r.member]? with
  | some (some ⟨i, store⟩) =>
    let before : State := ⟨(k.session.memory store).store, "", k.session.events,
      k.lists r.member, (k.session.memory store).made⟩
    let (result, after) : Except Fault Value × State :=
      match r.asked.run i before with
      | .ok v t => (.ok v, t)
      | .error fault t => (.error fault, t)
    (some ⟨result, after.out, after.store.names⟩,
      { session := { k.session with
          memories := k.session.memories.set store ⟨after.store, after.made⟩
          events := after.events }
        lists := fun member => if member = r.member then after.loading else k.lists member })
  | _ => (none, k)

/-- Steps one after the other. -/
def serveAll (k : Kept) (rs : List Request) : List Answer × Kept := serveInTurn serve k rs

end Kept

/-! ## The steps on a store -/

/-- Is it a step on the store? -/
def isOn (s : Session) (store : Nat) (r : Request) : Bool :=
  match s.members[r.member]? with
  | some (some member) => member.store = store
  | _ => false

/-- The interpreters that do the steps on a store, and what they are asked for. -/
def tasks (s : Session) (store : Nat) : List Request → List (Interpreter × Interpreter.Request)
  | [] => []
  | r :: rs =>
    match s.members[r.member]? with
    | some (some member) =>
      if member.store = store then (member.interpreter, r.asked) :: s.tasks store rs
      else s.tasks store rs
    | _ => s.tasks store rs

/-- What the steps on a store come to, of all steps. -/
def seenOn (s : Session) (store : Nat) (rs : List Request) (answers : List Answer) : List Answer :=
  ((rs.zip answers).filter fun step => s.isOn store step.1).map Prod.snd

/-- All interpreters of the session look for files in the same tree, from the same folder, and have
    the same room. -/
def SharesPlace (s : Session) (tree : FileTree) (folder : List String) (room : Nat) : Prop :=
  ∀ (n : Nat) (member : Member), s.members[n]? = some (some member) →
    member.interpreter.loader.tree = tree ∧ member.interpreter.loader.folder = folder ∧
      member.interpreter.room = room

/-- Two members work on the same store, have the same roots, and neither is halted. -/
def Interchangeable (s : Session) (n n' : Nat) : Prop :=
  ∃ member member' : Member, s.members[n]? = some (some member) ∧
    s.members[n']? = some (some member') ∧ member.store = member'.store ∧
    member.interpreter.loader.roots = member'.interpreter.loader.roots ∧
    member.interpreter.halted = false ∧ member'.interpreter.halted = false

/-- The same is asked for, of the same member or of one that may take its place. -/
def Reassigned (s : Session) (r r' : Request) : Prop :=
  r.asked = r'.asked ∧ (r.member = r'.member ∨ s.Interchangeable r.member r'.member)

end Session

/-! ## A single step -/

attribute [ext] State

namespace Run

/-- What has been put on record before a run makes no difference to what it comes to, nor to what
    it leaves behind but for what it puts on record. -/
theorem unrecorded {α : Type} {good : α → Prop} {loader : Loader} {x : Staged α} {x' : Run α}
    (hover : loader.Oversees x x') (hsame : Unnoticed ⟨.relative, []⟩ good x x') {s : State}
    (hs : s.loading = []) (events : Array Event) :
    ∃ outcome t events', x' s = result outcome t ∧
      x' { s with events := events } = result outcome { t with events := events' } := by
  -- in a third state a file is being loaded that no run can load, for its path is not absolute
  have hthird : ∀ u : State, u.loading = [] → s.store = u.store → s.out = u.out →
      s.made = u.made →
      SameBesides ⟨.relative, []⟩ good (x' u) (x' { s with loading := [⟨.relative, []⟩] }) := by
    intro u hu hstore hout hmade
    have hbesides : u.Besides ⟨.relative, []⟩ { s with loading := [⟨.relative, []⟩] } :=
      ⟨hstore, hout, hmade, [], [], hu, rfl⟩
    have hnever : ∀ scene ∈ (x [] u).1, (⟨.relative, []⟩ : Path) ∉ scene.inProgress := by
      intro scene hscene hmem
      have hguarded : scene.Guarded loader := by
        refine hover.scenes u (hu ▸ List.nodup_nil) (fun path hpath => ?_) scene (hu.symm ▸ hscene)
        rw [hu] at hpath
        cases hpath
      obtain ⟨spelling, hspelling⟩ := hguarded.resolved _ hmem
      cases hspelling
    have hboth := hsame [] u _ hbesides hnever
    rwa [hover.run_eq] at hboth
  obtain ⟨outcome, t, both, ht, hboth, hbesides, -⟩ := hthird s hs rfl rfl rfl
  obtain ⟨outcome', t', both', ht', hboth', hbesides', -⟩ :=
    hthird { s with events := events } hs rfl rfl rfl
  obtain ⟨rfl, rfl⟩ := result_inj (hboth.symm.trans hboth')
  refine ⟨outcome, t, t'.events, ht, ht'.trans (congrArg (result outcome) ?_)⟩
  have hleft : t.loading = [] := by
    have := hover.restores s
    rwa [stateAfter_result ht, hs] at this
  have hleft' : t'.loading = [] := by
    have := hover.restores { s with events := events }
    rwa [stateAfter_result ht', hs] at this
  -- both ends agree with the end of the run in the third state, so they agree with each other
  refine State.ext ?_ ?_ rfl ?_ ?_
  · exact hbesides'.store.symm.trans hbesides.store
  · exact hbesides'.out.symm.trans hbesides.out
  · exact hleft'.trans hleft.symm
  · exact hbesides'.made.symm.trans hbesides.made

end Run

namespace Interpreter

/-- Making an interpreter, and all that it may be asked for, leaves the list of its loader as it
    was. -/
theorem start_restores (loader : Loader) (room : Nat) (prelude : List String) :
    (start loader room prelude).Restores :=
  ((Host.relates_oversees loader).start room fun _ _ => trivial).1.restores

namespace Request

/-- The staged run of what an interpreter is asked for. -/
def staged (request : Request) (i : Interpreter) : Staged Value :=
  match request with
  | .eval source => Host.eval i source
  | .load path => Host.loadFile i path

/-- What is asked for keeps to the files that are being loaded. -/
theorem staged_oversees (request : Request) (i : Interpreter) :
    i.loader.Oversees (request.staged i) (request.run i) := by
  have h := Host.relates_oversees i.loader
  cases request with
  | eval source => exact (h.eval fun form _ => Scope.everything_code form).1
  | load path => exact (h.loadFile fun _ _ _ form _ => Scope.everything_code form).1

/-- What is asked for does not notice a file that is being loaded besides. -/
theorem staged_unnoticed (request : Request) (i : Interpreter) (file : Path) :
    Run.Unnoticed file Scope.everything.Data (request.staged i) (request.run i) := by
  have h := Host.relates_unnoticed (some i.loader) file
  cases request with
  | eval source => exact h.eval fun form _ => Scope.everything_code form
  | load path => exact h.loadFile fun _ _ _ form _ => Scope.everything_code form

/-- What an interpreter comes to on a memory, and what is in it then, where nothing is on record
    and no file is being loaded before. -/
def effect (request : Request) (i : Interpreter) (memory : Session.Memory) :
    Session.Outcome Value × Session.Memory :=
  match request.run i ⟨memory.store, "", #[], [], memory.made⟩ with
  | .ok v t => (⟨.ok v, t.out, t.store.names⟩, ⟨t.store, t.made⟩)
  | .error fault t => (⟨.error fault, t.out, t.store.names⟩, ⟨t.store, t.made⟩)

/-- Whatever is on record, a run comes to its effect, and its loader's list is empty again. -/
theorem run_effect (request : Request) (i : Interpreter) (memory : Session.Memory)
    (events : Array Event) :
    ∃ outcome t, request.run i ⟨memory.store, "", events, [], memory.made⟩
        = Run.result outcome t ∧ t.loading = [] ∧
      request.effect i memory = (⟨outcome, t.out, t.store.names⟩, ⟨t.store, t.made⟩) := by
  obtain ⟨outcome, t, events', ht, hsame⟩ := Run.unrecorded (request.staged_oversees i)
    (request.staged_unnoticed i _) (s := ⟨memory.store, "", #[], [], memory.made⟩) rfl events
  have hrestores := (request.staged_oversees i).restores
    ⟨memory.store, "", events, [], memory.made⟩
  rw [Run.stateAfter_result hsame] at hrestores
  refine ⟨outcome, { t with events := events' }, hsame, hrestores, ?_⟩
  rw [effect, ht]
  cases outcome <;> rfl

end Request

end Interpreter

/-! ## A step of a session -/

namespace Session

/-- A session performs a run on a store: it keeps what the run leaves in it. -/
theorem perform_of_run {α : Type} {s : Session} {store : Nat} {m : Run α} {t : State}
    {outcome : Except Fault α}
    (h : m ⟨(s.memory store).store, "", s.events, [], (s.memory store).made⟩
      = Run.result outcome t) :
    s.perform store m = (⟨outcome, t.out, t.store.names⟩,
      { s with memories := s.memories.set store ⟨t.store, t.made⟩, events := t.events }) := by
  rw [memory] at h
  rw [perform, h]
  cases outcome <;> rfl

variable {s : Session} {r : Request}

/-- A step comes to its effect on the store of its member, and changes nothing else but the record
    of events. -/
theorem serve_of_member {member : Member} (h : s.members[r.member]? = some (some member)) :
    ∃ outcome t, r.asked.run member.interpreter
        ⟨(s.memory member.store).store, "", s.events, [], (s.memory member.store).made⟩
          = Run.result outcome t ∧ t.loading = [] ∧
      r.asked.effect member.interpreter (s.memory member.store)
        = (⟨outcome, t.out, t.store.names⟩, ⟨t.store, t.made⟩) ∧
      s.serve r = (some ⟨outcome, t.out, t.store.names⟩,
        { s with
          memories := s.memories.set member.store ⟨t.store, t.made⟩
          events := t.events }) := by
  obtain ⟨outcome, t, hrun, hloading, heffect⟩ :=
    r.asked.run_effect member.interpreter (s.memory member.store) s.events
  refine ⟨outcome, t, hrun, hloading, heffect, ?_⟩
  rw [serve, step, h]
  dsimp only
  rw [perform_of_run hrun]

/-- Nothing happens if there is no such member. -/
theorem serve_of_none (h : ∀ member, s.members[r.member]? ≠ some (some member)) :
    s.serve r = (none, s) := by
  rw [serve, step]
  split
  · next hmember => exact absurd hmember (h _)
  · rfl

/-- Is the member of a step there? -/
theorem member_cases (s : Session) (r : Request) :
    (∃ member, s.members[r.member]? = some (some member)) ∨
      ∀ member, s.members[r.member]? ≠ some (some member) := by
  rcases hmember : s.members[r.member]? with _ | (_ | member)
  · exact Or.inr nofun
  · exact Or.inr nofun
  · exact Or.inl ⟨member, rfl⟩

/-- The members stay the same. -/
theorem members_serve (s : Session) (r : Request) : (s.serve r).2.members = s.members := by
  rcases s.member_cases r with ⟨member, h⟩ | h
  · obtain ⟨outcome, t, -, -, -, hserve⟩ := serve_of_member h
    rw [hserve]
  · rw [serve_of_none h]

/-- So do the stores, as many as they are. -/
theorem length_memories_serve (s : Session) (r : Request) :
    (s.serve r).2.memories.length = s.memories.length := by
  rcases s.member_cases r with ⟨member, h⟩ | h
  · obtain ⟨outcome, t, -, -, -, hserve⟩ := serve_of_member h
    rw [hserve]
    exact List.length_set
  · rw [serve_of_none h]

/-- Where no loader has a file in its list, a step does what it does in the running session, and
    no loader has one afterwards. -/
theorem Kept.Idle.serve {k : Kept} (h : k.Idle) (r : Request) :
    k.serve r = ((k.session.serve r).1, { k with session := (k.session.serve r).2 }) := by
  rw [Kept.serve]
  rcases k.session.member_cases r with ⟨member, hmember⟩ | hmember
  · obtain ⟨outcome, t, hrun, hloading, -, hserve⟩ := serve_of_member hmember
    -- the list of the member is empty before and after, so the lists stay as they are
    have hlists : (fun n => if n = r.member then [] else k.lists n) = k.lists := by
      funext n
      split
      · rw [h n]
      · rfl
    rw [hmember, hserve]
    dsimp only
    rw [h r.member, hrun]
    cases outcome <;> simp only [Run.result, hloading, hlists]
  · rw [serve_of_none hmember]
    split
    · next hsome => exact absurd hsome (hmember _)
    · rfl

/-! ## Many steps -/

/-- A session that keeps its loaders' lists does what the running session does, which forgets
    them. -/
theorem Kept.Idle.serveAll {k : Kept} (h : k.Idle) (rs : List Request) :
    k.serveAll rs
      = ((k.session.serveAll rs).1, { k with session := (k.session.serveAll rs).2 }) := by
  induction rs generalizing k with
  | nil => rfl
  | cons r rs ih =>
    have hrest := ih (k := { k with session := (k.session.serve r).2 }) h
    rw [Kept.serveAll] at hrest
    rw [Kept.serveAll, serveInTurn_cons, h.serve r, hrest]
    rfl

/-- What the steps on a store come to one after the other, and what is in the store then. -/
def effects (memory : Memory) (work : List (Interpreter × Interpreter.Request)) :
    List (Outcome Value) × Memory :=
  serveInTurn (fun memory (i, asked) => asked.effect i memory) memory work

variable {store : Nat}

/-- Which steps are on a store is a matter of the members. -/
theorem isOn_of_members {t : Session} (h : t.members = s.members) (store : Nat) (r : Request) :
    t.isOn store r = s.isOn store r := by
  rw [isOn, isOn, h]

/-- So are the tasks. -/
theorem tasks_of_members {t : Session} (h : t.members = s.members) (store : Nat)
    (rs : List Request) : t.tasks store rs = s.tasks store rs := by
  induction rs with
  | nil => rfl
  | cons r rs ih => rw [tasks, tasks, h, ih]

/-- So is what is seen. -/
theorem seenOn_of_members {t : Session} (h : t.members = s.members) (store : Nat)
    (rs : List Request) (answers : List Answer) :
    t.seenOn store rs answers = s.seenOn store rs answers := by
  simp only [seenOn, isOn_of_members h]

/-- A step is seen if it is on the store. -/
theorem seenOn_cons (s : Session) (store : Nat) (r : Request) (rs : List Request)
    (answer : Answer) (answers : List Answer) :
    s.seenOn store (r :: rs) (answer :: answers)
      = if s.isOn store r then answer :: s.seenOn store rs answers
        else s.seenOn store rs answers := by
  rw [seenOn, List.zip_cons_cons, List.filter_cons]
  split <;> rfl

/-- A step that is not on the store leaves it as it is. -/
theorem memory_serve_of_not_isOn (h : s.isOn store r = false) :
    (s.serve r).2.memory store = s.memory store := by
  rcases s.member_cases r with ⟨member, hmember⟩ | hmember
  · obtain ⟨outcome, t, -, -, -, hserve⟩ := serve_of_member hmember
    have hne : member.store ≠ store := by
      rw [isOn, hmember] at h
      exact of_decide_eq_false h
    rw [hserve]
    show (s.memories.set member.store ⟨t.store, t.made⟩).getD store .empty
      = s.memories.getD store .empty
    rw [List.getD_eq_getElem?_getD, List.getD_eq_getElem?_getD, List.getElem?_set_ne hne]
  · rw [serve_of_none hmember]

/-- A step on the store is that of a member, and comes to its effect. -/
theorem serve_of_isOn (h : s.isOn store r = true) (hstore : store < s.memories.length) :
    ∃ i, (∀ rs, s.tasks store (r :: rs) = (i, r.asked) :: s.tasks store rs) ∧
      (s.serve r).1 = some (r.asked.effect i (s.memory store)).1 ∧
      (s.serve r).2.memory store = (r.asked.effect i (s.memory store)).2 := by
  rcases s.member_cases r with ⟨member, hmember⟩ | hmember
  · obtain ⟨outcome, t, -, -, heffect, hserve⟩ := serve_of_member hmember
    -- the request is on this store, so the member that serves it works on it
    have heq : member.store = store := by
      rw [isOn, hmember] at h
      exact of_decide_eq_true h
    subst heq
    refine ⟨member.interpreter, fun rs => ?_, ?_, ?_⟩
    · rw [tasks, hmember]
      exact if_pos rfl
    · rw [hserve, heffect]
    · rw [hserve, heffect]
      show (s.memories.set member.store ⟨t.store, t.made⟩).getD member.store .empty = _
      rw [List.getD_eq_getElem?_getD, List.getElem?_set_self hstore]
      rfl
  · rw [isOn] at h
    split at h
    · next hsome => exact absurd hsome (hmember _)
    · cases h

/-- A step that is not on the store is no task there. -/
theorem tasks_of_not_isOn (h : s.isOn store r = false) (rs : List Request) :
    s.tasks store (r :: rs) = s.tasks store rs := by
  rw [tasks]
  rw [isOn] at h
  split
  · next hmember =>
    rw [hmember] at h
    exact if_neg (of_decide_eq_false h)
  · rfl

/-- All that a store goes through is what is asked for on it, whatever else is asked for
    meanwhile. -/
theorem serveAll_on (hstore : store < s.memories.length) (rs : List Request) :
    s.seenOn store rs (s.serveAll rs).1
        = (effects (s.memory store) (s.tasks store rs)).1.map some ∧
      (s.serveAll rs).2.memory store = (effects (s.memory store) (s.tasks store rs)).2 := by
  induction rs generalizing s with
  | nil => exact ⟨rfl, rfl⟩
  | cons r rs ih =>
    have hmembers := s.members_serve r
    have hlength : store < (s.serve r).2.memories.length := by rwa [length_memories_serve]
    obtain ⟨hseen, hmemory⟩ := ih hlength
    rw [seenOn_of_members hmembers, tasks_of_members hmembers] at hseen
    rw [tasks_of_members hmembers] at hmemory
    rw [serveAll, serveInTurn_cons, seenOn_cons]
    rw [serveAll] at hseen hmemory
    -- a step on another store leaves this one as it is, and one on it has its effect
    cases hon : s.isOn store r with
    | false =>
      rw [memory_serve_of_not_isOn hon] at hseen hmemory
      rw [tasks_of_not_isOn hon]
      exact ⟨hseen, hmemory⟩
    | true =>
      obtain ⟨i, htasks, hanswer, hnow⟩ := serve_of_isOn hon hstore
      rw [hnow] at hseen hmemory
      rw [htasks, effects, serveInTurn_cons, hanswer, if_pos rfl, hseen]
      exact ⟨rfl, hmemory⟩

/-- The steps that are not on the store have no tasks on it. -/
theorem tasks_filter (s : Session) (store : Nat) (rs : List Request) :
    s.tasks store (rs.filter (s.isOn store)) = s.tasks store rs := by
  induction rs with
  | nil => rfl
  | cons r rs ih =>
    rw [List.filter_cons]
    cases hon : s.isOn store r with
    | false =>
      rw [tasks_of_not_isOn hon]
      exact ih
    | true => rw [if_pos rfl, tasks, tasks, ih]

/-- Where all steps are on the store, all that they come to is seen. -/
theorem seenOn_of_forall {rs : List Request} (h : ∀ r ∈ rs, s.isOn store r = true)
    {answers : List Answer} (hlength : answers.length = rs.length) :
    s.seenOn store rs answers = answers := by
  have hall : (rs.zip answers).filter (fun step => s.isOn store step.1) = rs.zip answers := by
    rw [List.filter_eq_self]
    intro step hstep
    exact h step.1 (List.of_mem_zip hstep).1
  rw [seenOn, hall, List.map_snd_zip (Nat.le_of_eq hlength)]

/-- There is an answer for every step. -/
theorem length_serveAll (s : Session) (rs : List Request) :
    (s.serveAll rs).1.length = rs.length := by
  induction rs generalizing s with
  | nil => rfl
  | cons r rs ih =>
    rw [serveAll, serveInTurn_cons, List.length_cons, List.length_cons]
    exact congrArg (· + 1) (ih (s.serve r).2)

/-- A member in the place of another does the same. -/
theorem serve_of_reassigned {tree : FileTree} {folder : List String} {room : Nat}
    (hplace : s.SharesPlace tree folder room) {r r' : Request} (h : s.Reassigned r r') :
    s.serve r' = s.serve r := by
  obtain ⟨hasked, hmember | ⟨member, member', hm, hm', hstore, hroots, hgoes, hgoes'⟩⟩ := h
  · rw [serve, serve, hasked, hmember]
  · -- the two have the same place, the same roots and neither is halted: they are the same
    obtain ⟨htree, hfolder, hroom⟩ := hplace _ _ hm
    obtain ⟨htree', hfolder', hroom'⟩ := hplace _ _ hm'
    obtain ⟨⟨⟨roots, tree, folder⟩, room, halted⟩, store⟩ := member
    obtain ⟨⟨⟨roots', tree', folder'⟩, room', halted'⟩, store'⟩ := member'
    dsimp only at *
    subst htree htree' hfolder hfolder' hroom hroom' hroots hstore hgoes hgoes'
    rw [serve, serve, step, step, hm, hm', hasked]

/-- So the same comes of steps for which any of them takes the place of another. -/
theorem serveAll_of_reassigned {tree : FileTree} {folder : List String} {room : Nat}
    (hplace : s.SharesPlace tree folder room) {rs rs' : List Request}
    (h : List.Forall₂ s.Reassigned rs rs') : s.serveAll rs' = s.serveAll rs := by
  induction rs generalizing s rs' with
  | nil =>
    cases h
    rfl
  | cons r rs ih =>
    rcases h with _ | @⟨_, r', _, rs', hr, hrs⟩
    have hmembers := s.members_serve r
    -- who may take whose place is a matter of the members, and these stay
    have hplace' : (s.serve r).2.SharesPlace tree folder room := by
      rw [SharesPlace, hmembers]
      exact hplace
    have hrs' : List.Forall₂ (s.serve r).2.Reassigned rs rs' := by
      refine hrs.imp fun q q' hq => ?_
      rw [Reassigned, Interchangeable, hmembers]
      exact hq
    have hrest := ih hplace' hrs'
    rw [serveAll, serveAll] at hrest
    rw [serveAll, serveAll, serveInTurn_cons, serveInTurn_cons, serve_of_reassigned hplace hr,
      hrest]

end Session

/-! ## The headline -/

/-- Interpreters interleave safely.  Take a session in which every loader keeps its list from one
    step to the next, with all lists empty in the beginning, as making an interpreter leaves them.
    Whatever texts are evaluated and files loaded, by whichever members, and however each step
    ends: all lists are empty again, and everything is as in the running session, whose loaders
    forget.  What the steps on a store come to, with what they display, and what they leave in the
    store, is as if they were the only steps; and it is the same in any two sessions in which the
    store holds the same at first and the same is asked for of the same interpreters.  Between
    members on the same store with the same roots, neither of them halted, it makes no difference
    who does a step. -/
theorem interpreters_interleave {k : Session.Kept} (hidle : k.Idle) :
    (∀ (loader : Loader) room prelude, (Interpreter.start loader room prelude).Restores) ∧
    (∀ rs, (k.serveAll rs).2.Idle ∧ (k.serveAll rs).1 = (k.session.serveAll rs).1 ∧
      (k.serveAll rs).2.session = (k.session.serveAll rs).2) ∧
    (∀ store < k.session.memories.length, ∀ rs,
      k.session.seenOn store rs (k.serveAll rs).1
        = (k.serveAll (rs.filter (k.session.isOn store))).1 ∧
      (k.serveAll rs).2.session.memory store
        = (k.serveAll (rs.filter (k.session.isOn store))).2.session.memory store) ∧
    (∀ k' : Session.Kept, k'.Idle → ∀ store < k.session.memories.length,
      ∀ store' < k'.session.memories.length,
      k'.session.memory store' = k.session.memory store → ∀ rs rs',
      k'.session.tasks store' rs' = k.session.tasks store rs →
      k'.session.seenOn store' rs' (k'.serveAll rs').1
        = k.session.seenOn store rs (k.serveAll rs).1 ∧
      (k'.serveAll rs').2.session.memory store' = (k.serveAll rs).2.session.memory store) ∧
    ∀ tree folder room, k.session.SharesPlace tree folder room → ∀ rs rs',
      List.Forall₂ k.session.Reassigned rs rs' → k.serveAll rs' = k.serveAll rs := by
  refine ⟨Interpreter.start_restores, fun rs => ?_, fun store hstore rs => ?_, ?_, ?_⟩
  · rw [hidle.serveAll]
    exact ⟨hidle, rfl, rfl⟩
  · obtain ⟨hseen, hmemory⟩ := Session.serveAll_on hstore rs
    obtain ⟨hseen', hmemory'⟩ :=
      Session.serveAll_on hstore (rs.filter (k.session.isOn store))
    -- what the store is asked to do is the same if the other requests are left out
    rw [Session.tasks_filter] at hseen' hmemory'
    rw [Session.seenOn_of_forall (fun r hr => (List.mem_filter.mp hr).2)
      (k.session.length_serveAll _)] at hseen'
    rw [hidle.serveAll, hidle.serveAll]
    exact ⟨hseen.trans hseen'.symm, hmemory.trans hmemory'.symm⟩
  · intro k' hidle' store hstore store' hstore' hsame rs rs' htasks
    obtain ⟨hseen, hmemory⟩ := Session.serveAll_on hstore rs
    obtain ⟨hseen', hmemory'⟩ := Session.serveAll_on hstore' rs'
    rw [hsame, htasks] at hseen' hmemory'
    rw [hidle.serveAll, hidle'.serveAll]
    exact ⟨hseen'.trans hseen.symm, hmemory'.trans hmemory.symm⟩
  · intro tree folder room hplace rs rs' h
    rw [hidle.serveAll, hidle.serveAll, Session.serveAll_of_reassigned hplace h]

/-- Two members on a store and one on another, none of them halted. -/
def Session.ofThree : Session :=
  ⟨[.empty, .empty],
    [some ⟨⟨.withItself, 100, false⟩, 0⟩, some ⟨⟨.withItself, 100, false⟩, 0⟩,
      some ⟨⟨.withItself, 100, false⟩, 1⟩], #[]⟩

/-- The first two members load a file that requires itself, which fails while it is being loaded
    within itself.  They may do so in either order, and what a third member does meanwhile on the
    other store is not seen. -/
theorem interpreters_interleave_three :
    let k : Session.Kept := ⟨.ofThree, fun _ => []⟩
    let first : Session.Request := ⟨0, .load ⟨.relative, ["..", "a.scm"]⟩⟩
    let second : Session.Request := ⟨1, .load ⟨.relative, ["..", "a.scm"]⟩⟩
    let other : Session.Request := ⟨2, .eval "(define x 1)"⟩
    (k.serveAll [first, second]).2.Idle ∧
    Session.ofThree.seenOn 0 [first, other, second] (k.serveAll [first, other, second]).1
      = (k.serveAll [first, second]).1 ∧
    k.serveAll [second, other, first] = k.serveAll [first, other, second] := by
  intro k first second other
  have hidle : k.Idle := fun _ => rfl
  have hplace : k.session.SharesPlace Loader.withItself.tree ["lib"] 100 := by
    intro n member h
    have hmember : some member ∈ k.session.members := List.mem_of_getElem? h
    have hcases : member = ⟨⟨.withItself, 100, false⟩, 0⟩ ∨
        member = ⟨⟨.withItself, 100, false⟩, 1⟩ := by
      simpa [k, Session.ofThree] using hmember
    rcases hcases with rfl | rfl <;> exact ⟨rfl, rfl, rfl⟩
  have hinterchange : k.session.Interchangeable 0 1 :=
    ⟨_, _, rfl, rfl, rfl, rfl, rfl, rfl⟩
  have hinterchange' : k.session.Interchangeable 1 0 :=
    ⟨_, _, rfl, rfl, rfl, rfl, rfl, rfl⟩
  -- the two that share a store take each other's place
  obtain ⟨-, hkept, hseen, -, hwho⟩ := interpreters_interleave hidle
  refine ⟨(hkept _).1, (hseen 0 (by decide) [first, other, second]).1, ?_⟩
  refine hwho _ _ _ hplace _ _ (.cons ⟨rfl, Or.inr hinterchange⟩ ?_)
  exact .cons ⟨rfl, Or.inl rfl⟩ (.cons ⟨rfl, Or.inr hinterchange'⟩ .nil)

end SmallScheme
