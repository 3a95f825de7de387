import SmallScheme.Interpreter

/-!
# Sessions

Several interpreters side by side. All of them work on one store, each in a frame of
primitives: an isolated interpreter in a frame of its own, all others in one common
frame, which is made for the first of them. Interpreters are numbered in order of
creation.

## The model

An `Action` is what one interpreter can be asked to do; it is performed in the frame of
that interpreter. A `Request` creates an interpreter, sends an action to one, or
compares two of them. Every request gets one `Answer`.
-/

namespace SmallScheme

/-- What an interpreter can be asked to do. -/
inductive Action where
  /-- Evaluate the forms of a text and write the last value. -/
  | eval (text : String)
  /-- Read the data of a text. -/
  | read (text : String)
  /-- Evaluate the first datum of a text. -/
  | form (text : String)
  /-- Evaluate the forms of a file. -/
  | load (bytes : ByteArray)
  /-- Run the interactive loop on a text. -/
  | repl (input prompt : String)
  /-- Tell whether the frame of the interpreter binds a name. -/
  | bound (name : String)
  /-- Show the frame of the interpreter. -/
  | environment

/-- An answer to a request. -/
inductive Answer where
  /-- An interpreter was created and has this number. -/
  | created (index : Nat)
  /-- The external form of a value; no text if there was no form. -/
  | text (s : String)
  /-- The external forms of data. -/
  | forms (texts : List String)
  /-- The type and the external form of a value. -/
  | shown (typeName text : String)
  /-- A file was loaded. -/
  | loaded
  /-- The output of the interactive loop, and the error that stopped it. -/
  | transcript (output : String) (failure : Option Report)
  /-- A name is bound or not. -/
  | bound (b : Bool)
  /-- Two interpreters have the same frame or not. -/
  | same (b : Bool)
  /-- The size and the bindings of a frame. -/
  | environment (summary bindings : String)
  /-- The action failed. -/
  | failed (r : Report)
  /-- There is no interpreter of that number. -/
  | unknown

namespace Action

/-- The answer that a computation on the store leads to. -/
def answerOf {α : Type} (limits : Limits) (x : EvalM α) (answer : α → Except WriteError Answer)
    (store : Store) : Answer × Store :=
  match x store with
  | .error e store => (.failed (e.report limits.nesting), store)
  | .ok a store =>
    match answer a with
    | .ok answer => (answer, store)
    | .error e => (.failed e.report, store)

/-- Evaluates the first datum of a text. -/
def evalFirst (limits : Limits) (text : String) (f : FrameId) : EvalM Value :=
  match Reader.readFirst limits.nesting text with
  | .error e => throw (.read e)
  | .ok d => evalForm limits d f

/-- Performs an action in the frame `f`. -/
def perform (limits : Limits) (action : Action) (store : Store) (f : FrameId := Store.global) :
    Answer × Store :=
  match action with
  | eval text =>
    let answer : Value → Except WriteError Answer
      | .absent => .ok (.text "")
      | v => return .text (← v.write limits.nesting)
    answerOf limits (evalText limits text f) answer store
  | read text =>
    answerOf limits (EvalM.ofExcept (readForms limits text)) (fun texts => .ok (.forms texts)) store
  | form text =>
    let answer (v : Value) : Except WriteError Answer :=
      return .shown v.typeName (← v.write limits.nesting)
    answerOf limits (evalFirst limits text f) answer store
  | load bytes =>
    match runFile limits bytes f store with
    | (⟨_, .ok _⟩, store) => (.loaded, store)
    | (⟨_, .error e⟩, store) => (.failed (e.report limits.nesting), store)
  | repl input prompt =>
    let (turns, store) := SmallScheme.repl limits input f store
    let failure := turns.findSome? Turn.abortion?
    (.transcript (SmallScheme.transcript limits.nesting prompt turns)
      (failure.map (·.report limits.nesting)), store)
  | bound name => (.bound ((store.frame f).binds ⟨name⟩), store)
  | environment =>
    match store.showFrame limits.nesting f with
    | .ok bindings => (.environment (store.summary f) bindings, store)
    | .error e => (.failed e.report, store)

end Action

/-- The interpreters of a session. -/
structure Session where
  /-- The store that all interpreters work on. -/
  store : Store := .bare
  /-- The frame of the interpreters that are not isolated, once there is one. -/
  common : Option FrameId := none
  /-- The frame of each interpreter, in order of creation. -/
  seats : List FrameId := []

/-- A request to a session. -/
inductive Request where
  /-- Create an interpreter. -/
  | new (isolated : Bool)
  /-- Send an action to an interpreter. -/
  | act (i : Nat) (action : Action)
  /-- Tell whether two interpreters have the same frame. -/
  | same (i j : Nat)

namespace Session

/-- Gives a new interpreter the next number and its frame: the common one if that is there
and the interpreter is not isolated, otherwise a new one. -/
def enrol (s : Session) (isolated : Bool) : Session :=
  match isolated, s.common with
  | false, some f => { s with seats := s.seats ++ [f] }
  | _, _ =>
    let (f, store) := s.store.addGlobal
    { store, common := if isolated then s.common else some f, seats := s.seats ++ [f] }

/-- The two interpreters with the given numbers have the same frame. -/
def sameFrame (s : Session) (i j : Nat) : Option Bool := do
  return (← s.seats[i]?) == (← s.seats[j]?)

/-- Answers a request. -/
def step (limits : Limits) (s : Session) : Request → Answer × Session
  | .new isolated => (.created s.seats.length, s.enrol isolated)
  | .act i action =>
    match s.seats[i]? with
    | none => (.unknown, s)
    | some f =>
      let (answer, store) := action.perform limits s.store f
      (answer, { s with store })
  | .same i j =>
    match s.sameFrame i j with
    | some b => (.same b, s)
    | none => (.unknown, s)

/-- The answers to a list of requests, and the session after them. -/
def run (limits : Limits) : Session → List Request → List Answer × Session
  | s, [] => ([], s)
  | s, r :: rs =>
    let (answer, t) := s.step limits r
    let (answers, u) := run limits t rs
    (answer :: answers, u)

end Session

end SmallScheme
