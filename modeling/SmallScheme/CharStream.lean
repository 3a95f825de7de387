import SmallScheme.Text.Blank

/-!
# Character streams

A text read one character at a time, with pushback.

## The model

A stream delivers *items*: characters, and `none` for the end of input. Items pushed
back are delivered first, the last one pushed back before the others; a pushed-back
end of input is delivered once, like a character. After them come the characters of
the source, and then an end of input for every further request. The position counts
the characters delivered less those pushed back, so it may become negative. A stream
remembers whether its source has been asked at its end: up to then, what it delivered
does not depend on where the source ends.

The characters are Unicode scalar values. A text that holds a surrogate has no stream.
-/

namespace SmallScheme

/-- A text being read. -/
structure CharStream where
  /-- The items pushed back, the next one to deliver first. -/
  pushback : List (Option Char) := []
  /-- The characters not yet taken from the source. -/
  source : List Char
  /-- The characters delivered so far, less those pushed back. -/
  position : Int := 0
  /-- The source has been asked at its end. -/
  exhausted : Bool := false

namespace CharStream

/-- A stream at the start of a text. -/
def ofString (s : String) : CharStream := ⟨[], s.toList, 0, false⟩

/-- The number of items delivered before the source is asked at its end. -/
def available (s : CharStream) : Nat := s.pushback.length + s.source.length

/-- The next item, and the stream after it. -/
def next : CharStream → Option Char × CharStream
  | ⟨some c :: items, source, p, x⟩ => (some c, ⟨items, source, p + 1, x⟩)
  | ⟨none :: items, source, p, x⟩ => (none, ⟨items, source, p, x⟩)
  | ⟨[], c :: source, p, x⟩ => (some c, ⟨[], source, p + 1, x⟩)
  | ⟨[], [], p, _⟩ => (none, ⟨[], [], p, true⟩)

/-- The stream with an item pushed back. -/
def unread (s : CharStream) : Option Char → CharStream
  | some c => ⟨some c :: s.pushback, s.source, s.position - 1, s.exhausted⟩
  | none => ⟨none :: s.pushback, s.source, s.position, s.exhausted⟩

/-- The next item, left in the stream to be delivered again. -/
def peek (s : CharStream) : Option Char × CharStream := (s.next.1, s.next.2.unread s.next.1)

/-- An item pushed back is delivered next. -/
@[simp]
theorem next_unread (s : CharStream) (c : Option Char) : (s.unread c).next = (c, s) := by
  cases c <;> simp [unread, next]

/-- A character delivered is one item fewer to come. -/
theorem available_next {s t : CharStream} {c : Char} (h : s.next = (some c, t)) :
    t.available < s.available := by
  obtain ⟨pushback, source, p, x⟩ := s
  rcases pushback with _ | ⟨_ | a, items⟩
  · cases source with
    | nil => simp [next] at h
    | cons a source =>
      simp only [next, Prod.mk.injEq] at h
      simp [available, ← h.2]
  · simp [next] at h
  · simp only [next, Prod.mk.injEq] at h
    simp only [available, ← h.2, List.length_cons]
    omega

/-- The stream after the next newline, or after the next end of input if that comes first. -/
def skipLine (s : CharStream) : CharStream :=
  match _h : s.next with
  | (some c, t) => if c = '\n' then t else t.skipLine
  | (none, t) => t
termination_by s.available
decreasing_by exact available_next _h

theorem skipLine_eq (s : CharStream) : s.skipLine =
    match s.next with
    | (some c, t) => if c = '\n' then t else t.skipLine
    | (none, t) => t := by
  rw [skipLine]
  split <;> simp_all

/-- A skipped line leaves no more items to come. -/
theorem available_skipLine (s : CharStream) : s.skipLine.available ≤ s.available := by
  fun_induction skipLine s with
  | case1 s t h => exact Nat.le_of_lt (available_next h)
  | case2 s c t h _ ih => exact Nat.le_trans ih (Nat.le_of_lt (available_next h))
  | case3 s t h =>
    obtain ⟨pushback, source, p, x⟩ := s
    rcases pushback with _ | ⟨_ | a, items⟩
    · cases source with
      | nil => simp only [next, Prod.mk.injEq] at h; simp [available, ← h.2]
      | cons a source => simp [next] at h
    · simp only [next, Prod.mk.injEq] at h; simp [available, ← h.2]
    · simp [next] at h

/-- The stream after blanks and comments. A comment starts at `;` and takes the rest of its
line, the newline or end of input included. -/
def skipAtmosphere (s : CharStream) : CharStream :=
  match _h : s.next with
  | (some c, t) =>
    if Text.isBlank c then t.skipAtmosphere
    else if c = ';' then t.skipLine.skipAtmosphere
    else t.unread (some c)
  | (none, t) => t.unread none
termination_by s.available
decreasing_by
  · exact available_next _h
  · exact Nat.lt_of_le_of_lt (available_skipLine t) (available_next _h)

theorem skipAtmosphere_eq (s : CharStream) : s.skipAtmosphere =
    match s.next with
    | (some c, t) =>
      if Text.isBlank c then t.skipAtmosphere
      else if c = ';' then t.skipLine.skipAtmosphere
      else t.unread (some c)
    | (none, t) => t.unread none := by
  rw [skipAtmosphere]
  split <;> simp_all

/-- The longest run of characters with property `p`, and the stream after it. The item
that ends the run has been pushed back. -/
def takeRun (p : Char → Bool) (s : CharStream) : List Char × CharStream :=
  match _h : s.next with
  | (some c, t) =>
    if p c then
      let (cs, u) := t.takeRun p
      (c :: cs, u)
    else ([], t.unread (some c))
  | (none, t) => ([], t.unread none)
termination_by s.available
decreasing_by exact available_next _h

theorem takeRun_eq (p : Char → Bool) (s : CharStream) : s.takeRun p =
    match s.next with
    | (some c, t) =>
      if p c then (c :: (t.takeRun p).1, (t.takeRun p).2) else ([], t.unread (some c))
    | (none, t) => ([], t.unread none) := by
  rw [takeRun]
  split <;> simp_all

end CharStream

end SmallScheme
