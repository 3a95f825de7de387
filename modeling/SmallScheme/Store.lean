import SmallScheme.Error

/-!
# Frames and the store

Variables live in frames. A frame binds symbols to values and is enclosed by other
frames; a variable means its binding in the nearest frame that has one.

## The model

The store holds all frames made so far, numbered in order of creation, and the first
mark that no object bears yet. Each frame lists the frames that enclose it, innermost
first; the last of them is always frame `0`, the empty frame, which never binds
anything. The bindings of a frame stand in the order in which their names were first
defined.
-/

namespace SmallScheme

/-- The bindings of a frame, in the order of first definition. -/
abbrev Bindings := List (Symbol × Value)

namespace Bindings

/-- Binds `n` to `v`: in place if `n` is bound, at the end otherwise. -/
def put (n : Symbol) (v : Value) : Bindings → Bindings
  | [] => [(n, v)]
  | (m, w) :: bs => if m = n then (n, v) :: bs else (m, w) :: put n v bs

/-- A binding changes the value of its own name and of no other. -/
theorem lookup_put (n m : Symbol) (v : Value) (bs : Bindings) :
    List.lookup m (put n v bs) = if m = n then some v else List.lookup m bs := by
  induction bs with
  | nil => by_cases h : m = n <;> simp [put, List.lookup_cons, h, beq_eq_false_iff_ne.2]
  | cons b bs ih =>
    obtain ⟨k, w⟩ := b
    by_cases hk : k = n
    · subst hk
      by_cases h : m = k <;> simp [put, List.lookup_cons, h, beq_eq_false_iff_ne.2]
    · simp only [put, hk, if_false, List.lookup_cons, ih]
      by_cases h : m = k
      · subst h
        simp [hk]
      · simp [beq_eq_false_iff_ne.2 h]

/-- The names keep their order; a new one comes last. -/
theorem map_fst_put (n : Symbol) (v : Value) (bs : Bindings) :
    (put n v bs).map (·.1) = if n ∈ bs.map (·.1) then bs.map (·.1) else bs.map (·.1) ++ [n] := by
  induction bs with
  | nil => rfl
  | cons b bs ih =>
    obtain ⟨k, w⟩ := b
    by_cases hk : k = n
    · simp [put, hk]
    · have hn : n ≠ k := fun h => hk h.symm
      simp only [put, hk, if_false, List.map_cons, ih, List.mem_cons, hn, false_or]
      split <;> simp

/-- The bindings of the primitives, marked from `m` on. -/
def primitives (m : Nat) : List Primitive → Bindings
  | [] => []
  | p :: ps => (⟨p.name⟩, .primitive m p) :: primitives (m + 1) ps

/-- Adds the bindings of parameters to arguments, from left to right. The two numbers are
those of all parameters and all arguments. -/
def addParameters (expected got : Nat) : Value → Value → Bindings → Except Error Bindings
  | .pair _ (.symbol n) params, .pair _ v args, bs =>
    addParameters expected got params args (put n v bs)
  | .pair _ (.symbol _) _, _, _ => .error (.tooFew expected got)
  | .pair _ p _, _, _ => .error (.parameter p)
  | .nil, .nil, bs => .ok bs
  | .nil, _, _ => .error (.tooMany expected got)
  | tail, _, _ => .error (.parameterTail tail)

/-- Binds each parameter to its argument. -/
def ofParameters (params args : Value) : Except Error Bindings :=
  addParameters params.pairCount args.pairCount params args []

end Bindings

/-- A frame. -/
structure Frame where
  /-- What the frame binds. -/
  bindings : Bindings := []
  /-- The frames that enclose it, innermost first. -/
  outer : List FrameId := []

namespace Frame

/-- The value that a frame binds `n` to. -/
def get? (f : Frame) (n : Symbol) : Option Value := f.bindings.lookup n

/-- The frame binds `n`. -/
def binds (f : Frame) (n : Symbol) : Bool := (f.get? n).isSome

/-- The names a frame binds, in the order of first definition. -/
def names (f : Frame) : List Symbol := f.bindings.map (·.1)

theorem binds_eq_true_iff {f : Frame} {n : Symbol} : f.binds n = true ↔ n ∈ f.names := by
  rw [binds, get?, names]
  induction f.bindings with
  | nil => simp
  | cons b bs ih =>
    obtain ⟨m, w⟩ := b
    by_cases h : n = m
    · simp [h]
    · simp [List.lookup_cons, beq_eq_false_iff_ne.2 h, ih, h]

/-- The frame with `n` bound to `v`. -/
def put (n : Symbol) (v : Value) (f : Frame) : Frame := { f with bindings := f.bindings.put n v }

end Frame

/-- All frames, and the first mark not yet given to an object. -/
structure Store where
  /-- The frames, in order of creation. -/
  frames : Array Frame
  /-- The first mark left. -/
  fresh : Nat := 0

namespace Store

/-- The frame that encloses all others. -/
def empty : FrameId := 0

/-- The store with no frame but the empty one. -/
def bare : Store := ⟨#[{}], 0⟩

/-- The frame numbered `f`. -/
def frame (s : Store) (f : FrameId) : Frame := s.frames[f]?.getD {}

/-- A frame and those that enclose it, innermost first. -/
def chain (s : Store) (f : FrameId) : List FrameId := f :: (s.frame f).outer

/-- The nearest frame, from `f` outward, that binds `n`. -/
def find? (s : Store) (f : FrameId) (n : Symbol) : Option FrameId :=
  (s.chain f).find? fun g => (s.frame g).binds n

/-- The value of `n` in the nearest frame, from `f` outward, that binds it. -/
def lookup? (s : Store) (f : FrameId) (n : Symbol) : Option Value :=
  (s.chain f).findSome? fun g => (s.frame g).get? n

/-- Binds `n` to `v` in the frame `f` itself. -/
def put (s : Store) (f : FrameId) (n : Symbol) (v : Value) : Store :=
  { s with frames := s.frames.modify f (Frame.put n v) }

theorem frame_put (s : Store) (f g : FrameId) (n : Symbol) (v : Value) :
    (s.put f n v).frame g =
      if g = f ∧ f < s.frames.size then (s.frame f).put n v else s.frame g := by
  by_cases hg : g = f
  · subst hg
    by_cases hs : g < s.frames.size <;> simp [put, frame, hs, Array.getElem_modify]
  · have hf : f ≠ g := fun h => hg h.symm
    simp [put, frame, Array.getElem?_modify, hg, hf]

@[simp]
theorem size_put (s : Store) (f : FrameId) (n : Symbol) (v : Value) :
    (s.put f n v).frames.size = s.frames.size := by
  simp [put]

/-- A binding encloses no frame by another. -/
@[simp]
theorem outer_put (s : Store) (f g : FrameId) (n : Symbol) (v : Value) :
    ((s.put f n v).frame g).outer = (s.frame g).outer := by
  rw [frame_put]
  split
  · next h => rw [h.1, Frame.put]
  · rfl

@[simp]
theorem chain_put (s : Store) (f g : FrameId) (n : Symbol) (v : Value) :
    (s.put f n v).chain g = s.chain g := by
  rw [chain, outer_put, chain]

/-- Adds a frame inside `f`. -/
def push (s : Store) (f : FrameId) (bindings : Bindings) : FrameId × Store :=
  let outer := s.chain f
  (s.frames.size, { s with frames := s.frames.push ⟨bindings, outer⟩ })

/-- The frame that is added is the only one that is new. -/
theorem frame_push (s : Store) (f g : FrameId) (bindings : Bindings) :
    (s.push f bindings).2.frame g =
      if g = s.frames.size then ⟨bindings, s.chain f⟩ else s.frame g := by
  simp only [push, frame, Array.getElem?_push]
  split <;> rfl

@[simp]
theorem size_push (s : Store) (f : FrameId) (bindings : Bindings) :
    (s.push f bindings).2.frames.size = s.frames.size + 1 := by
  simp [push]

/-- Adds a frame inside the empty frame that binds every primitive. -/
def addGlobal (s : Store) : FrameId × Store :=
  let t := { s with fresh := s.fresh + Primitive.all.length }
  t.push empty (.primitives s.fresh Primitive.all)

/-- The frame of the primitives in a store made by `initial`. -/
def global : FrameId := 1

/-- The store of an interpreter before its first form. -/
def initial : Store := bare.addGlobal.2

/-! ### What the language does to the store -/

/-- The value of a variable. -/
def lookup (s : Store) (f : FrameId) (n : Symbol) : Except Error Value :=
  match s.lookup? f n with
  | some v => .ok v
  | none => .error (.unbound (.symbol n))

/-- Binds a variable in the frame `f`. -/
@[inline]
def define (s : Store) (f : FrameId) (n : Symbol) (v : Value) : Except Error Store :=
  if f = empty then .error (.definitionInEmpty n) else .ok (s.put f n v)

/-- Changes the nearest binding of a variable. -/
@[inline]
def assign (s : Store) (f : FrameId) (n : Symbol) (v : Value) : Except Error Store :=
  match s.find? f n with
  | some g => .ok (s.put g n v)
  | none => .error (.unbound (.symbol n))

/-- Adds a frame inside `f` that binds parameters to arguments. -/
@[inline]
def extend (s : Store) (params args : Value) (f : FrameId) : Except Error (FrameId × Store) :=
  match Bindings.ofParameters params args with
  | .ok bindings => .ok (s.push f bindings)
  | .error e => .error e

/-! ### Names that may be any object

Only a symbol can be bound; any other object used as a name is not bound anywhere. -/

/-- The nearest frame that binds an object used as a name. -/
def findName? (s : Store) (f : FrameId) : Value → Option FrameId
  | .symbol n => s.find? f n
  | _ => none

/-- The value of an object used as a name. -/
def lookupName (s : Store) (f : FrameId) : Value → Except Error Value
  | .symbol n => s.lookup f n
  | name => .error (.unbound name)

/-- Binds an object used as a name. -/
def defineName (s : Store) (f : FrameId) (name v : Value) : Except Error Store :=
  match name with
  | .symbol n => s.define f n v
  | _ => .error (.definitionOf name)

/-- Changes the nearest binding of an object used as a name. -/
def assignName (s : Store) (f : FrameId) (name v : Value) : Except Error Store :=
  match name with
  | .symbol n => s.assign f n v
  | _ => .error (.unbound name)

/-! ### Showing frames -/

/-- The bindings of a frame, each name with its value, and an arrow if other frames
enclose it. -/
def showFrame (s : Store) (nesting : Nat) (f : FrameId) : Except WriteError String := do
  let frame := s.frame f
  let entries ← frame.bindings.mapM fun (n, v) => do
    return n.name ++ ": " ++ (← v.describe nesting)
  let arrow := if frame.outer.isEmpty then "" else " -> ..."
  return "\x7b" ++ ", ".intercalate entries ++ "\x7d" ++ arrow

/-- The number of bindings of a frame, and the number of frames that enclose it. -/
def summary (s : Store) (f : FrameId) : String :=
  let frame := s.frame f
  "<Environment " ++ Text.numeral frame.bindings.length ++ " bindings, depth " ++
    Text.numeral frame.outer.length ++ ">"

end Store

end SmallScheme
