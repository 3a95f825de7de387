import SmallScheme.Proofs.Reader.Texts
import SmallScheme.Proofs.Session.Placement

/-!
# Two loops over one text

A text is evaluated as a whole, which stops at the first error, or in the interactive loop,
which goes on. Both read a form only after the one before has been evaluated. What they do is
said here of the data that the reader finds in the text: `evalReading` and `turns` go through
a list of data and read nothing. So the two loops come upon the same forms, and reading a form
as late as possible makes no difference, except for the marks of the objects that it is made
of (`evalAfterReading`).

What the interactive loop writes for a form is said by the form alone (`Answers`): the external
form of its value, or what is wrong.
-/

namespace SmallScheme

open Object Sequencing Evaluation CharStream Reader

/-! ### What evaluating data comes to -/

/-- The value of the last form, unless reading stopped with an error. -/
def concludeReading (r : Reading) (v : Value) : EvalM Value :=
  match r.failure with
  | some e => throw (.read e)
  | none => return v

/-- Evaluates the data of a reading in order and then fails if the reading did. -/
def evalReading (limits : Limits) (f : FrameId) (r : Reading) : EvalM Value := do
  concludeReading r (← evalData limits f r.content .absent)

/-- Makes all data of a reading, evaluates them in order and then fails if the reading did. -/
def evalAfterReading (limits : Limits) (f : FrameId) (r : Reading) : EvalM Value := do
  concludeReading r (← evalValues limits f (← placeAll r.content) .absent)

/-! ### What the interactive loop does with data -/

/-- The turn for a datum, and the store after it. -/
def turn (limits : Limits) (f : FrameId) (d : Datum) (s : Store) : Turn × Store :=
  match evalPrint limits d f s with
  | .ok text t => (.printed d text, t)
  | .error e t => (.failed d e, t)

/-- The turns for data in order. Each is evaluated in the store that the one before it has
left, also if that one has failed. -/
def turns (limits : Limits) (f : FrameId) : List Datum → Store → List Turn × Store
  | [], s => ([], s)
  | d :: ds, s => ((turn limits f d s).1 :: (turns limits f ds (turn limits f d s).2).1,
      (turns limits f ds (turn limits f d s).2).2)

/-- The turn is not stopped by an error outside the language. -/
def Turn.IsOrdinary : Turn → Prop
  | .failed _ e => e.isOrdinary = true
  | _ => True

/-- `Answers limits f d s text t`: in the frame `f` and the store `s` the form `d` has an outcome
that leaves the store `t`, and `text` tells it. -/
inductive Answers (limits : Limits) (f : FrameId) (d : Datum) (s : Store) : String → Store → Prop
  /-- The external form of its value. -/
  | value {v : Value} {t : Store} {shown : String} (h : evalForm limits d f s = .ok v t)
      (hw : v.write limits.nesting = .ok shown) : Answers limits f d s (shown ++ "\n") t
  /-- Why its value has no external form. -/
  | unwritable {v : Value} {t : Store} {w : WriteError} (h : evalForm limits d f s = .ok v t)
      (hw : v.write limits.nesting = .error w) :
      Answers limits f d s ("error: " ++ w.message ++ "\n") t
  /-- Why it has no value. -/
  | failed {e : Error} {t : Store} {message : String} (h : evalForm limits d f s = .error e t)
      (hm : (e.report limits.nesting).message = some message) :
      Answers limits f d s ("error: " ++ message ++ "\n") t

/-- `AnswersAll limits f ds s texts t`: the texts tell the outcomes of the forms in order. Each
form is evaluated in the store that the one before it has left, also if that one has failed. -/
inductive AnswersAll (limits : Limits) (f : FrameId) :
    List Datum → Store → List String → Store → Prop
  | nil (s : Store) : AnswersAll limits f [] s [] s
  | cons {d : Datum} {ds : List Datum} {s t u : Store} {text : String} {texts : List String}
      (h : Answers limits f d s text t) (hs : AnswersAll limits f ds t texts u) :
      AnswersAll limits f (d :: ds) s (text :: texts) u

/-- The turn is a form with its value. -/
def Turn.IsPrinted (t : Turn) : Prop := ∃ d text, t = .printed d text

theorem Turn.IsPrinted.isOrdinary {t : Turn} (h : t.IsPrinted) : t.IsOrdinary := by
  obtain ⟨d, text, rfl⟩ := h
  trivial

variable {limits : Limits} {f : FrameId} {s : CharStream} {q : Int} {cs : List Char} {r : Reading}
  {count : Nat}

/-! ### The loops go through the data -/

theorem readForm_complete (limits : Limits) (s : CharStream) : readForm limits true s =
    match Reader.read limits.nesting s with
    | .ok d t => .ok (d.map fun d => (d, t))
    | .error e _ => .error (.read e) := by
  rw [readForm]
  cases Reader.read limits.nesting s <;> rfl

/-- The outcome of a run, as that of a computation. -/
def Run.result (x : Run × Store) : Outcome Value :=
  match x with
  | (⟨_, .ok v⟩, s) => .ok v s
  | (⟨_, .error e⟩, s) => .error e s

theorem Run.result_begin (d : Datum) (x : Run × Store) :
    Run.result (x.1.begin d, x.2) = Run.result x := by
  obtain ⟨⟨forms, outcome⟩, store⟩ := x
  cases outcome <;> rfl

/-- Evaluating a stream is evaluating its data. -/
theorem result_runStream (hr : Reads limits.nesting s r) (hs : s.At q cs) (h : cs.length < count)
    (last : Value) (store : Store) :
    Run.result (runStream limits f true count s last store) =
      (do concludeReading r (← evalData limits f r.content last)) store := by
  induction hr generalizing cs count last store with
  | ended hread =>
    obtain ⟨count, rfl⟩ := Nat.exists_eq_add_one_of_ne_zero (Nat.ne_zero_of_lt h)
    simp only [runStream, readForm_complete, hread]
    rfl
  | fault hread =>
    obtain ⟨count, rfl⟩ := Nat.exists_eq_add_one_of_ne_zero (Nat.ne_zero_of_lt h)
    simp only [runStream, readForm_complete, hread]
    rfl
  | @datum s t d r hread _ ih =>
    obtain ⟨count, rfl⟩ := Nat.exists_eq_add_one_of_ne_zero (Nat.ne_zero_of_lt h)
    obtain ⟨cs', ht, hlt⟩ := exists_at_of_read hs hread
    simp only [runStream, readForm_complete, hread, Option.map_some]
    rw [bind_apply, Reading.content_cons, evalData, bind_apply]
    cases evalForm limits d f store with
    | error e store => rfl
    | ok v store => exact (Run.result_begin d _).trans (ih ht (by omega) v store)

theorem evalText_eq (limits : Limits) (text : String) (f : FrameId) :
    evalText limits text f =
      evalReading limits f (readAll limits.nesting (.ofString text)) := by
  funext store
  have h := result_runStream (f := f) (reads_readAll limits.nesting text) (at_ofString text)
    (length_lt_available text) .absent store
  rw [evalReading, ← h, evalText, runText]
  rfl

/-! ### Reading everything first -/

/-- **Reading can come first.** -/
theorem evalAfterReading_outcome {s : Store} (hs : Reachable limits s) (hf : f < s.frames.size)
    {r : Reading} (hr : ∀ d ∈ r.content, d.IsPlain) :
    ∃ ρ u, ρ.frame = id ∧
      evalAfterReading limits f r s =
        ρ.outcome (Object.rename ρ) (evalReading limits f r s) u ∧
      Matches ρ (Outcome.store (evalReading limits f r s)) u := by
  obtain ⟨ρ₀, h⟩ := exists_ahead hs r.content
  obtain ⟨ρ, u, hframe, hrun, hu⟩ := h.evalData hs hf hr .absent
  refine ⟨ρ, u, hframe, ?_⟩
  have hlate : evalAfterReading limits f r s = (evalValues limits f
      (placeList r.content s.fresh).1 .absent >>= concludeReading r)
        { s with fresh := (placeList r.content s.fresh).2 } := by
    rw [evalAfterReading, bind_of_ok (placeAll_apply r.content s)]
  rw [hlate, evalReading, bind_apply, bind_apply,
    show evalValues limits f _ .absent _ = _ from hrun]
  cases hx : evalData limits f r.content .absent s with
  | error e s' =>
    rw [hx] at hu
    exact ⟨rfl, hu⟩
  | ok v s' =>
    rw [hx] at hu
    simp only [Renaming.outcome, concludeReading]
    cases r.failure with
    | none => exact ⟨rfl, hu⟩
    | some e => exact ⟨rfl, hu⟩

/-! ### The interactive loop -/

/-- How the loop goes on when all data have had their turns and left the store `s`: it ends, or
it finds that what comes next cannot be read. -/
def LoopGoesOn (failure : Option ReadError) (s : Store) (rest : List Turn) (t : Store) : Prop :=
  match failure with
  | none => rest = [.ended] ∧ t = s
  | some e => rest.head? = some (.unreadable e)

/-- The interactive loop gives the data of a stream their turns. -/
theorem exists_replTurns (hr : Reads limits.nesting s r) (hs : s.At q cs) (h : cs.length < count)
    (store : Store) (hdigits : r.failure ≠ some .digitLimit)
    (hturns : ∀ t ∈ (turns limits f r.content store).1, t.IsOrdinary) :
    ∃ rest last, replTurns limits f count s store =
        ((turns limits f r.content store).1 ++ rest, last) ∧
      LoopGoesOn r.failure (turns limits f r.content store).2 rest last := by
  induction hr generalizing cs count store with
  | ended hread =>
    obtain ⟨count, rfl⟩ := Nat.exists_eq_add_one_of_ne_zero (Nat.ne_zero_of_lt h)
    simp only [replTurns, hread]
    exact ⟨_, _, rfl, rfl, rfl⟩
  | @fault s t e hread =>
    obtain ⟨count, rfl⟩ := Nat.exists_eq_add_one_of_ne_zero (Nat.ne_zero_of_lt h)
    simp only [replTurns, hread]
    cases e with
    | digitLimit => exact absurd rfl hdigits
    | malformed fault position => exact ⟨_, _, rfl, rfl⟩
  | @datum s t d r hread _ ih =>
    obtain ⟨count, rfl⟩ := Nat.exists_eq_add_one_of_ne_zero (Nat.ne_zero_of_lt h)
    obtain ⟨cs', ht, hlt⟩ := exists_at_of_read hs hread
    obtain ⟨hd, hds⟩ := List.forall_mem_cons.1 hturns
    obtain ⟨rest, last, hrun, hrest⟩ :=
      ih ht (show cs'.length < count by omega) (turn limits f d store).2 hdigits hds
    refine ⟨rest, last, ?_, hrest⟩
    simp only [replTurns, hread, Reading.content_cons, turns]
    simp only [turn] at hd hrun ⊢
    cases hx : evalPrint limits d f store with
    | ok text store' =>
      simp only [hx] at hrun ⊢
      rw [hrun]
      rfl
    | error e store' =>
      simp only [hx] at hd hrun ⊢
      rw [if_pos (show e.isOrdinary = true from hd), hrun]
      rfl

/-- The loop writes the prompt and an answer for every turn. -/
theorem transcript_eq (nesting : Nat) (prompt : String) (ts : List Turn) :
    transcript nesting prompt ts = String.join (ts.map fun t => prompt ++ t.answer nesting) := by
  simp only [transcript, String.join, List.foldl_map, String.append_assoc]

/-- A fault of the text is told with its position. -/
theorem Turn.answer_unreadable (fault : ReadFault) (p : Int) (nesting : Nat) :
    (Turn.unreadable (.malformed fault p)).answer nesting =
      "error: " ++ fault.message ++ " (at offset " ++ Text.numeral p ++ ")\n" := by
  have h : (Turn.unreadable (.malformed fault p)).answer nesting =
      "error: " ++ (fault.message ++ " (at offset " ++ Text.numeral p ++ ")") ++ "\n" := rfl
  rw [h, show (")\n" : String) = ")" ++ "\n" from rfl]
  simp only [String.append_assoc]

/-- The texts of turns follow one another. -/
theorem transcript_append (nesting : Nat) (prompt : String) (ts us : List Turn) :
    transcript nesting prompt (ts ++ us) =
      String.join ((ts.map (Turn.answer nesting)).map fun answer => prompt ++ answer) ++
        transcript nesting prompt us := by
  rw [transcript_eq, transcript_eq, List.map_append, String.join_append, List.map_map]
  rfl

/-- At the end of the text a last prompt and a newline are written. -/
theorem LoopGoesOn.transcript_ended {store t : Store} {rest : List Turn}
    (h : LoopGoesOn none store rest t) (nesting : Nat) (prompt : String) :
    transcript nesting prompt rest = prompt ++ "\n" := by
  rw [h.1, transcript_eq]
  simp [Turn.answer]

/-- What cannot be read is told after a prompt. -/
theorem LoopGoesOn.exists_transcript {store t : Store} {rest : List Turn} {fault : ReadFault}
    {p : Int} (h : LoopGoesOn (some (.malformed fault p)) store rest t) (nesting : Nat)
    (prompt : String) :
    ∃ more, transcript nesting prompt rest =
      prompt ++ ("error: " ++ fault.message ++ " (at offset " ++ Text.numeral p ++ ")\n") ++
        more := by
  obtain ⟨more, rfl⟩ := List.head?_eq_some_iff.1 h
  refine ⟨transcript nesting prompt more, ?_⟩
  rw [transcript_eq, transcript_eq, List.map_cons, String.join_cons, Turn.answer_unreadable]

/-- An error of the language has a message, or there is one in its place. -/
theorem Error.exists_message_of_isOrdinary {e : Error} (h : e.isOrdinary = true) (nesting : Nat) :
    ∃ message, (e.report nesting).message = some message := by
  unfold report
  cases e.message nesting with
  | ok text => exact ⟨text, if_pos h⟩
  | error w => cases w <;> exact ⟨_, rfl⟩

/-- What a turn writes tells the outcome of its form. -/
theorem answers_turn {d : Datum} {store : Store} (h : (turn limits f d store).1.IsOrdinary) :
    Answers limits f d store ((turn limits f d store).1.answer limits.nesting)
      (turn limits f d store).2 := by
  unfold turn at h ⊢
  rw [evalPrint, bind_apply] at h ⊢
  cases hx : evalForm limits d f store with
  | error e store' =>
    simp only [hx, Turn.IsOrdinary] at h
    obtain ⟨message, hm⟩ := Error.exists_message_of_isOrdinary h limits.nesting
    simp only [Turn.answer, Error.text, hm, Option.getD_some]
    exact .failed hx hm
  | ok v store' =>
    simp only
    cases hw : v.write limits.nesting with
    | ok shown => exact .value hx hw
    | error w =>
      have hm : (Error.write w).text limits.nesting = w.message := by cases w <;> rfl
      simp only [throw_apply, Turn.answer, hm]
      exact .unwritable hx hw

theorem answersAll_turns {ds : List Datum} {store : Store}
    (h : ∀ t ∈ (turns limits f ds store).1, t.IsOrdinary) :
    AnswersAll limits f ds store
      ((turns limits f ds store).1.map (Turn.answer limits.nesting))
      (turns limits f ds store).2 := by
  induction ds generalizing store with
  | nil => exact .nil store
  | cons d ds ih =>
    obtain ⟨hd, hds⟩ := List.forall_mem_cons.1 h
    exact .cons (answers_turn hd) (ih hds)

/-- A form whose turn shows a value has that value. -/
theorem exists_of_isPrinted {d : Datum} {store : Store}
    (h : (turn limits f d store).1.IsPrinted) :
    ∃ v text, evalForm limits d f store = .ok v (turn limits f d store).2 ∧
      v.write limits.nesting = .ok text ∧ (turn limits f d store).1 = .printed d text := by
  obtain ⟨d', text, ht⟩ := h
  unfold turn at ht ⊢
  rw [evalPrint, bind_apply] at ht ⊢
  cases hx : evalForm limits d f store with
  | error e store' =>
    rw [hx] at ht
    cases ht
  | ok v store' =>
    simp only [hx] at ht ⊢
    cases hw : v.write limits.nesting with
    | error e =>
      rw [hw] at ht
      cases ht
    | ok text => exact ⟨v, text, rfl, hw, rfl⟩

/-- If every form has a value that can be written, evaluating them leaves the store that the
turns leave, and the value of the last is the last one written. -/
theorem evalData_of_isPrinted {ds : List Datum} (hne : ds ≠ []) {store : Store}
    (h : ∀ t ∈ (turns limits f ds store).1, t.IsPrinted) (last : Value) :
    ∃ v d text, evalData limits f ds last store = .ok v (turns limits f ds store).2 ∧
      v.write limits.nesting = .ok text ∧
        (turns limits f ds store).1.getLast? = some (.printed d text) := by
  induction ds generalizing store last with
  | nil => exact absurd rfl hne
  | cons d ds ih =>
    obtain ⟨hd, hds⟩ := List.forall_mem_cons.1 h
    obtain ⟨v, text, hx, hw, ht⟩ := exists_of_isPrinted hd
    rw [evalData, bind_of_ok hx]
    cases ds with
    | nil =>
      refine ⟨v, d, text, rfl, hw, ?_⟩
      rw [turns, ht]
      rfl
    | cons d' ds =>
      obtain ⟨v', d'', text', hx', hw', ht'⟩ := ih (by simp) hds v
      refine ⟨v', d'', text', hx', hw', ?_⟩
      rw [turns, turns, List.getLast?_cons_cons, ← ht']
      rfl

/-- **Evaluating a text, its interactive loop, and reading it first do the same.** Let `r` be
the data of the text, read one after the other.

Evaluating the text is evaluating these data in order up to the first error; if there is none,
it ends with the value of the last of them, or with the error of reading. To make all data
before any of them is evaluated changes nothing but marks.

The interactive loop evaluates the same data in order, each in the store that the one before
has left. For each it writes the prompt, the external form of the value or what is wrong, and a
newline. After the last it writes the prompt and a newline and ends; or it finds what cannot be
read and writes the prompt and the fault with its position. Errors outside the language, which
stop the loop, are left aside.

So if there are forms and nothing fails, both leave the same store, and the last value written
is the value of the text. -/
theorem loops_over_texts (limits : Limits) (text : String) (f : FrameId) (store : Store) :
    let r := readAll limits.nesting (.ofString text)
    let ts := turns limits f r.content store
    let loop := repl limits text f store
    (evalText limits text f store = evalReading limits f r store ∧
      (Reachable limits store → f < store.frames.size → ∃ ρ u, ρ.frame = id ∧
        evalAfterReading limits f r store =
          ρ.outcome (Object.rename ρ) (evalText limits text f store) u ∧
        Matches ρ (Outcome.store (evalText limits text f store)) u)) ∧
    (r.failure ≠ some .digitLimit → (∀ t ∈ ts.1, t.IsOrdinary) →
      ∃ texts rest, AnswersAll limits f r.content store texts ts.2 ∧
        loop.1 = ts.1 ++ rest ∧ LoopGoesOn r.failure ts.2 rest loop.2 ∧
        ∀ prompt,
          transcript limits.nesting prompt loop.1 =
            String.join (texts.map fun answer => prompt ++ answer) ++
              transcript limits.nesting prompt rest ∧
          (r.failure = none → transcript limits.nesting prompt rest = prompt ++ "\n") ∧
          ∀ fault p, r.failure = some (.malformed fault p) → ∃ more,
            transcript limits.nesting prompt rest =
              prompt ++ ("error: " ++ fault.message ++ " (at offset " ++ Text.numeral p ++ ")\n") ++
                more) ∧
    (r.content ≠ [] → r.failure = none → (∀ t ∈ ts.1, t.IsPrinted) →
      ∃ v before d shown, evalText limits text f store = .ok v loop.2 ∧
        v.write limits.nesting = .ok shown ∧ loop.1 = before ++ [.printed d shown, .ended]) := by
  intro r ts loop
  have hr : Reads limits.nesting (.ofString text) r := reads_readAll limits.nesting text
  have hloop (hdigits : r.failure ≠ some .digitLimit) (hturns : ∀ t ∈ ts.1, t.IsOrdinary) :
      ∃ rest, loop.1 = ts.1 ++ rest ∧ LoopGoesOn r.failure ts.2 rest loop.2 := by
    obtain ⟨rest, last, hrun, hrest⟩ := exists_replTurns hr (at_ofString text)
      (length_lt_available text) store hdigits hturns
    rw [show loop = (ts.1 ++ rest, last) from hrun]
    exact ⟨rest, rfl, hrest⟩
  refine ⟨⟨by rw [evalText_eq], fun hs hf => ?_⟩, fun hdigits hturns => ?_,
    fun hne hnone hprinted => ?_⟩
  · rw [evalText_eq]
    exact evalAfterReading_outcome hs hf hr.isPlain
  · obtain ⟨rest, hrun, hrest⟩ := hloop hdigits hturns
    refine ⟨_, rest, answersAll_turns hturns, hrun, hrest, fun prompt => ⟨?_, fun hnone => ?_,
      fun fault p hfault => ?_⟩⟩
    · rw [hrun, transcript_append]
    · rw [hnone] at hrest
      exact hrest.transcript_ended _ prompt
    · rw [hfault] at hrest
      exact hrest.exists_transcript _ prompt
  · obtain ⟨v, d, shown, hv, hw, hlast⟩ := evalData_of_isPrinted hne hprinted .absent
    obtain ⟨rest, hrun, hrest⟩ := hloop (by simp [hnone]) fun t ht =>
      (hprinted t ht).isOrdinary
    rw [hnone] at hrest
    obtain ⟨before, hbefore⟩ := List.getLast?_eq_some_iff.1 hlast
    refine ⟨v, before, d, shown, ?_, hw, ?_⟩
    · rw [evalText_eq, evalReading, bind_of_ok hv, concludeReading, hrest.2]
      simp only [r] at hnone
      rw [hnone]
      rfl
    · rw [hrun, hrest.1, show ts.1 = _ from hbefore, List.append_assoc]
      rfl

/-- The text `#t`, which is one form. -/
theorem loops_over_true :
    let limits : Limits := ⟨1, 1⟩
    let loop := repl limits "#t" Store.global .initial
    transcript limits.nesting "> " loop.1 = "> #t\n> \n" ∧
      ∃ v before d shown, evalText limits "#t" Store.global .initial = .ok v loop.2 ∧
        v.write limits.nesting = .ok shown ∧ loop.1 = before ++ [.printed d shown, .ended] := by
  intro limits loop
  have hread : readAll limits.nesting (.ofString "#t") = ⟨[(.boolean true, 2)], none, _⟩ :=
    Reading.eq_mk (by decide +kernel) (by decide +kernel)
  obtain ⟨-, hwritten, hsame⟩ := loops_over_texts limits "#t" Store.global .initial
  rw [hread] at hwritten hsame
  have hprinted : ∀ t ∈ (turns limits Store.global [.boolean true] .initial).1, t.IsPrinted := by
    rintro t (_ | ⟨_, ⟨⟩⟩)
    exact ⟨_, _, rfl⟩
  refine ⟨?_, hsame (by simp [Reading.content]) rfl hprinted⟩
  obtain ⟨texts, rest, hall, -, -, htext⟩ := hwritten (by simp) fun t ht =>
    (hprinted t ht).isOrdinary
  obtain ⟨hjoin, hend, -⟩ := htext "> "
  rw [hjoin, hend rfl]
  -- the one form has the value `#t`
  cases hall with
  | cons h hs =>
    cases hs
    cases h with
    | value h hw =>
      cases h
      cases hw
      rfl
    | unwritable h hw =>
      cases h
      cases hw
    | failed h hm => cases h

end SmallScheme
