import SmallScheme.Interpreter
import SmallScheme.Proofs.Reader.Standing
import SmallScheme.Proofs.Reader.Texts

/-!
# How the interactive loop goes on after a fault

The interactive loop reads a datum, answers it and reads on where the datum ended. Where reading
fails it skips a line first. The reader has then taken the item that has shown the error, and it
may have pushed it back. In both cases the loop reads on behind the line of that item. But if
the item is a newline and has not been pushed back, the line is over already, and it is the
line after it that is skipped.

## The model

`Loop.Step` is a turn after which the loop reads again, and `Loop.Reaches` a number of them: so
it tells at which streams the loop reads, without a bound on the turns. `Loop.Stops` is a turn that
is the last.
-/

namespace SmallScheme

open CharStream Reader Sequencing

/-! ### Lines of a text -/

/-- The place after the first newline of `text` at place `k` or later, or the end of the text if
there is none. -/
def afterLine (text : List Char) (k : Nat) : Nat :=
  match (text.drop k).findIdx? (· = '\n') with
  | some i => k + i + 1
  | none => text.length

section Lines

variable {text cs : List Char} {s : CharStream}

/-- A line is as long as its newline is far. -/
theorem length_of_dropWhile (cs : List Char) :
    match cs.findIdx? (· = '\n') with
    | some i => i + 1 + (cs.dropWhile (· ≠ '\n')).tail.length = cs.length
    | none => (cs.dropWhile (· ≠ '\n')).tail.length = 0 := by
  induction cs with
  | nil => rfl
  | cons c cs ih =>
    by_cases hc : c = '\n'
    · subst hc
      simp [List.findIdx?_cons, Nat.add_comm]
    · rw [List.findIdx?_cons, List.dropWhile_cons_of_pos (by simpa using hc)]
      cases hi : cs.findIdx? (· = '\n') with
      | none => simpa [hc, hi] using ih
      | some i =>
        simp only [hi] at ih
        simp only [hc, decide_false, Bool.false_eq_true, if_false, Option.map_some,
          List.length_cons]
        omega

theorem CharStream.Stands.skipLine (h : s.Stands text cs) :
    s.skipLine.Stands text (cs.dropWhile (· ≠ '\n')).tail where
  isAt := h.isAt.skipLine
  isSuffix := (List.tail_suffix _).trans ((List.dropWhile_suffix _).trans h.isSuffix)
  tidy := h.tidy.skipLine

/-- A stream that skips a line stands behind it. -/
theorem position_skipLine (h : s.Stands text cs) :
    s.skipLine.position = afterLine text s.position.toNat := by
  have hlen := length_of_dropWhile cs
  have hle := h.isSuffix.length_le
  rw [h.skipLine.position_eq, afterLine, h.drop_position, h.position_eq]
  cases hi : cs.findIdx? (· = '\n') with
  | none =>
    simp only [hi] at hlen
    simp only [hlen, Nat.sub_zero]
  | some i =>
    simp only [hi] at hlen
    simp only [Int.toNat_natCast]
    omega

/-- A character that is no newline lies on the line of what comes after it. -/
theorem afterLine_succ {c : Char} {k : Nat} (hc : text[k]? = some c) (hne : c ≠ '\n') :
    afterLine text (k + 1) = afterLine text k := by
  have hdrop : text.drop k = c :: text.drop (k + 1) := (List.drop_eq_getElem?_toList_append
    (l := text) (i := k)).trans (by simp [hc])
  rw [afterLine, afterLine, hdrop, List.findIdx?_cons]
  cases hi : (text.drop (k + 1)).findIdx? (· = '\n') with
  | none => simp [hne]
  | some i => simp [hne]; omega

/-- Nothing comes after the line of the last character. -/
theorem afterLine_last {k : Nat} (h : k + 1 = text.length) : afterLine text k = text.length := by
  have hlen : (text.drop k).length = 1 := by
    rw [List.length_drop]
    omega
  obtain ⟨c, hdrop⟩ := List.length_eq_one_iff.1 hlen
  rw [afterLine, hdrop]
  by_cases hc : c = '\n' <;> simp [hc, List.findIdx?_cons, h]

end Lines

/-! ### The stream after a fault -/

/-- What is left of the source is still to come. -/
theorem CharStream.Delivers.length_source_le {s : CharStream} {cs : List Char}
    (h : s.Delivers cs) : s.source.length ≤ cs.length := by
  induction cs generalizing s with
  | nil => rw [h.1]
  | cons c cs ih =>
    obtain ⟨hc, hd⟩ := h
    have hle := ih hd
    obtain ⟨pushback, source, p, x⟩ := s
    rcases pushback with _ | ⟨_ | a, items⟩
    · cases source with
      | nil => exact Nat.zero_le _
      | cons a source => exact Nat.succ_le_succ hle
    · cases hc
    · exact Nat.le_succ_of_le hle

section Fault

variable {nesting : Nat} {text : List Char} {e : ReadError} {s u : CharStream}

/-- A fault takes at least one character. -/
theorem exists_at_of_fault {q : Int} {cs : List Char} (hs : s.At q cs)
    (h : read nesting s = .error e u) : ∃ r, u.At q r ∧ r.length < cs.length := by
  obtain ⟨r, ha, -, hs'⟩ := hs.exists_skipAtmosphere
  have hle := ha.isSuffix.length_le
  obtain ⟨hitem, hs''⟩ := hs'.next
  have htoken : nextToken s = .ok r.head? s.skipAtmosphere.next.2 := by
    rw [← hitem]
    rfl
  rw [Reader.read, bind_of_ok htoken] at h
  cases r with
  | nil => cases h
  | cons c r =>
    obtain ⟨o, s₁, w, r', hend, hw, hs₁, -⟩ := (Displaced.readDatum (δ := 0)
      (Nat.succ_le_succ hs''.delivers.length_le_available) (Nat.zero_le 0) nesting c).alike
      hs'' (Nat.lt_succ_self _)
    cases o with
    | ok d => cases Eq.trans (Eq.symm h) (bind_of_ok hend _)
    | error e₁ =>
      obtain ⟨rfl, rfl⟩ := EStateM.Result.error.inj (Eq.trans (Eq.symm h) (bind_of_error hend _))
      refine ⟨r', hs₁, ?_⟩
      have hlen := congrArg List.length hw
      simp only [List.tail_cons, List.length_append] at hlen
      rw [List.length_cons] at hle
      omega

theorem exists_stands_of_fault {cs : List Char} (hs : s.Stands text cs)
    (h : read nesting s = .error e u) : ∃ r, u.Stands text r ∧ r.length < cs.length := by
  obtain ⟨r, hat, hlt⟩ := exists_at_of_fault hs.isAt h
  obtain ⟨r', hu⟩ := ((meets_read nesting hs.within).of_error h).stands
  obtain rfl := hat.delivers.unique hu.isAt.delivers
  exact ⟨r, hu, hlt⟩

/-- **The line of the item that has shown an error is skipped**, unless the item is a newline
that has been taken: then the line after it is. Here `m` is the number of characters taken from
the source, pushed back or not. -/
theorem skipLine_of_foundAt {cs : List Char} {m : Nat} (hu : u.Stands text cs)
    (h : FoundAt text e u) (hlt : cs.length < text.length)
    (hm : m + u.source.length = text.length) : 1 ≤ m ∧
    (¬ e.AtNewline → u.skipLine.position = afterLine text (m - 1)) ∧
    (e.AtNewline → text[m - 1]? = some '\n' ∧ u.skipLine.position = afterLine text m) := by
  have hskip := position_skipLine hu
  rw [hu.position_eq, Int.toNat_natCast] at hskip
  cases h with
  | @ahead c hpushback he =>
    -- the character pushed back is the first to come
    have hcs : cs = c :: u.source := by
      obtain ⟨pushback, source, p, x⟩ := u
      obtain rfl : pushback = [some c] := hpushback
      exact hu.isAt.delivers.unique (⟨rfl, delivers_source _ _ _⟩ : Delivers (c :: source) _)
    rw [hcs, List.length_cons] at hskip hlt
    refine ⟨by omega, fun _ => ?_, fun he' => absurd he' he⟩
    rwa [show m - 1 = text.length - (u.source.length + 1) by omega]
  | atEnd hnil he =>
    have hsource : u.source.length = 0 := by rw [hnil.1, List.length_nil]
    obtain rfl : cs = [] := hu.isAt.delivers.unique hnil
    refine ⟨by omega, fun _ => ?_, fun he' => absurd he' he⟩
    rw [afterLine_last (by omega), hu.skipLine.position_eq]
    simp
  | @last c hpushback hsuffix he =>
    have hcs : cs = u.source := by
      obtain ⟨pushback, source, p, x⟩ := u
      obtain rfl : pushback = [] := hpushback
      exact hu.isAt.delivers.unique (delivers_source source p x)
    rw [hcs, show text.length - u.source.length = m by omega] at hskip
    have hpos : 1 ≤ m := by
      have hle := hsuffix.length_le
      rw [List.length_cons] at hle
      omega
    have hget : text[m - 1]? = some c := by
      have hdrop := List.suffix_iff_eq_drop.1 hsuffix
      rw [List.length_cons, show text.length - (u.source.length + 1) = m - 1 by omega] at hdrop
      rw [← List.head?_drop, ← hdrop, List.head?_cons]
    refine ⟨hpos, fun hne => ?_, fun he' => ⟨by rw [hget, he.1 he'], hskip⟩⟩
    rw [hskip, ← afterLine_succ hget fun hc => hne (he.2 hc), Nat.sub_add_cancel hpos]

end Fault

/-! ### The turns of the loop -/

namespace Loop

variable {limits : Limits} {f : FrameId}

/-- A turn after which the loop reads again, from another stream and with another store. -/
inductive Step (limits : Limits) (f : FrameId) (s : CharStream) (store : Store) :
    Turn → CharStream → Store → Prop
  /-- The text has a fault. -/
  | unreadable {e : ReadError} {u : CharStream} (h : read limits.nesting s = .error e u)
      (he : e ≠ .digitLimit) : Step limits f s store (.unreadable e) u.skipLine store
  /-- A form has a value. -/
  | printed {d : Datum} {t : CharStream} {shown : String} {store' : Store}
      (h : read limits.nesting s = .ok (some d) t)
      (hv : evalPrint limits d f store = .ok shown store') :
      Step limits f s store (.printed d shown) t store'
  /-- A form has no value. -/
  | failed {d : Datum} {t : CharStream} {e : Error} {store' : Store}
      (h : read limits.nesting s = .ok (some d) t)
      (hv : evalPrint limits d f store = .error e store') (he : e.isOrdinary = true) :
      Step limits f s store (.failed d e) t store'

/-- A turn after which the loop does not read again. -/
inductive Stops (limits : Limits) (f : FrameId) (s : CharStream) (store : Store) : Turn → Prop
  /-- The text is at its end. -/
  | ended {u : CharStream} (h : read limits.nesting s = .ok none u) : Stops limits f s store .ended
  /-- An integer out of range has too many digits to be shown. -/
  | unreadable {u : CharStream} (h : read limits.nesting s = .error .digitLimit u) :
      Stops limits f s store (.aborted none (.read .digitLimit))
  /-- A form fails with an error outside the language. -/
  | aborted {d : Datum} {u : CharStream} {e : Error} {store' : Store}
      (h : read limits.nesting s = .ok (some d) u)
      (hv : evalPrint limits d f store = .error e store') (he : e.isOrdinary = false) :
      Stops limits f s store (.aborted (some d) e)

/-- Turns one after the other, each after the first at the stream where the one before it has
led. -/
inductive Reaches (limits : Limits) (f : FrameId) :
    CharStream → Store → List Turn → CharStream → Store → Prop
  /-- No turn. -/
  | here {s : CharStream} {store : Store} : Reaches limits f s store [] s store
  /-- A turn before others. -/
  | step {s s' s'' : CharStream} {store store' store'' : Store} {t : Turn} {ts : List Turn}
      (h : Step limits f s store t s' store') (hr : Reaches limits f s' store' ts s'' store'') :
      Reaches limits f s store (t :: ts) s'' store''

variable {s s' s'' : CharStream} {store store' store'' : Store} {t : Turn} {ts : List Turn}
  {text cs : List Char} {count : Nat}

theorem Reaches.concat (h : Reaches limits f s store ts s' store')
    (ht : Step limits f s' store' t s'' store'') :
    Reaches limits f s store (ts ++ [t]) s'' store'' := by
  induction h with
  | here => exact .step ht .here
  | step h _ ih => exact .step h (ih ht)

/-- A turn leaves less to come. -/
theorem Step.stands (h : Step limits f s store t s' store') (hs : s.Stands text cs) :
    ∃ cs', s'.Stands text cs' ∧ cs'.length < cs.length := by
  cases h with
  | unreadable hread he =>
    obtain ⟨r, hu, hlt⟩ := exists_stands_of_fault hs hread
    refine ⟨_, hu.skipLine, Nat.lt_of_le_of_lt ?_ hlt⟩
    exact ((List.tail_suffix _).trans (List.dropWhile_suffix _)).length_le
  | printed hread _ | failed hread _ _ =>
    obtain ⟨r, hat, hlt⟩ := exists_at_of_read hs.isAt hread
    obtain ⟨r', hu⟩ := ((meets_read limits.nesting hs.within).of_ok hread).exists_stands
    obtain rfl := hat.delivers.unique hu.isAt.delivers
    exact ⟨r, hu, hlt⟩

/-- When the loop reads, it makes a turn and goes on, or it makes its last turn. -/
theorem replTurns_cases (limits : Limits) (f : FrameId) (count : Nat) (s : CharStream)
    (store : Store) :
    (∃ t s' store', Step limits f s store t s' store' ∧ (replTurns limits f (count + 1) s store).1 =
      t :: (replTurns limits f count s' store').1) ∨
    ∃ t, Stops limits f s store t ∧ (replTurns limits f (count + 1) s store).1 = [t] := by
  rw [replTurns]
  split
  · next hread => exact .inr ⟨_, .unreadable hread, rfl⟩
  · next e u he hread => exact .inl ⟨_, _, _, .unreadable hread he, rfl⟩
  · next hread => exact .inr ⟨_, .ended hread, rfl⟩
  · next d u hread =>
    split
    · next hv => exact .inl ⟨_, _, _, .printed hread hv, rfl⟩
    · next hv =>
      split
      · next he => exact .inl ⟨_, _, _, .failed hread hv he, rfl⟩
      · next he => exact .inr ⟨_, .aborted hread hv (by simpa using he), rfl⟩

/-- The first of the turns is followed by those that the loop makes from where it leads, or it is
the last. -/
theorem step_of_replTurns (h : (replTurns limits f (count + 1) s store).1 = t :: ts) :
    (∃ s' store', Step limits f s store t s' store' ∧
      (replTurns limits f count s' store').1 = ts) ∨
    ts = [] ∧ ∀ e, t ≠ .unreadable e := by
  rcases replTurns_cases limits f count s store with ⟨t', s', store', hstep, hts⟩ | ⟨t', hstop, hts⟩
  · obtain ⟨rfl, rfl⟩ := List.cons.inj (hts.symm.trans h)
    exact .inl ⟨s', store', hstep, rfl⟩
  · obtain ⟨rfl, rfl⟩ := List.cons.inj (hts.symm.trans h)
    refine .inr ⟨rfl, fun e he => ?_⟩
    subst he
    cases hstop

/-- The loop has reached the stream at which it makes a turn, and its bound is not met. -/
theorem exists_reaches (hs : s.Stands text cs) (hc : cs.length < count + 1) {rest : List Turn}
    (h : (replTurns limits f (count + 1) s store).1 = ts ++ t :: rest) :
    ∃ s' store' cs' count', Reaches limits f s store ts s' store' ∧ s'.Stands text cs' ∧
      cs'.length < count' + 1 ∧ (replTurns limits f (count' + 1) s' store').1 = t :: rest := by
  induction ts generalizing s store cs count with
  | nil => exact ⟨s, store, cs, count, .here, hs, hc, h⟩
  | cons t₁ ts ih =>
    rcases step_of_replTurns h with ⟨s', store', hstep, hts⟩ | ⟨hnil, -⟩
    · obtain ⟨cs', hs', hlt⟩ := hstep.stands hs
      obtain ⟨count, rfl⟩ := Nat.exists_eq_add_one_of_ne_zero (n := count) (by omega)
      obtain ⟨s'', store'', cs'', count', hreach, hrest⟩ := ih hs' (by omega) hts
      exact ⟨s'', store'', cs'', count', .step hstep hreach, hrest⟩
    · simp at hnil

end Loop

/-- **After a fault the interactive loop reads on behind the line of the fault.** Wherever it
answers that the text cannot be read, let `m` be the number of characters that the reader has
taken so far, those pushed back included. The loop reads next at the place after the first newline
at `m - 1` or later. It does not if the fault is a newline that has been taken: then the place
`m - 1` holds that newline, and the loop reads next after the first newline at `m` or later. -/
theorem loop_reads_on {limits : Limits} {f : FrameId} {text : String} {store₀ : Store}
    {ts rest : List Turn} {e : ReadError}
    (h : (repl limits text f store₀).1 = ts ++ .unreadable e :: rest) :
    ∃ s u store m count, Loop.Reaches limits f (.ofString text) store₀ ts s store ∧
      read limits.nesting s = .error e u ∧ m + u.source.length = text.length ∧ 1 ≤ m ∧
      Loop.Reaches limits f (.ofString text) store₀ (ts ++ [.unreadable e]) u.skipLine store ∧
      rest = (replTurns limits f (count + 1) u.skipLine store).1 ∧
      u.skipLine.Delivers (text.toList.drop u.skipLine.position.toNat) ∧
      (¬ e.AtNewline → u.skipLine.position = afterLine text.toList (m - 1)) ∧
      (e.AtNewline → text.toList[m - 1]? = some '\n' ∧
        u.skipLine.position = afterLine text.toList m) := by
  obtain ⟨s, store, cs, count, hreach, hs, hc, hturn⟩ := Loop.exists_reaches
    (stands_ofString text) (length_lt_available text) h
  rcases Loop.step_of_replTurns hturn with ⟨s', store', hstep, hrest⟩ | ⟨-, hne⟩
  · obtain ⟨cs', hs', hlt⟩ := hstep.stands hs
    obtain ⟨count, rfl⟩ := Nat.exists_eq_add_one_of_ne_zero (n := count) (by omega)
    have hnext := hreach.concat hstep
    cases hstep with
    | @unreadable _ u hread he =>
      have hfound := ((meets_read limits.nesting hs.within).of_error hread).foundAt
      obtain ⟨r, hu, hr⟩ := exists_stands_of_fault hs hread
      have hr' : r.length < text.toList.length := Nat.lt_of_lt_of_le hr hs.isSuffix.length_le
      obtain ⟨m, hm⟩ := Nat.exists_eq_add_of_le'
        (Nat.le_trans hu.isAt.delivers.length_source_le (Nat.le_of_lt hr'))
      obtain ⟨hpos, hline⟩ := skipLine_of_foundAt hu hfound hr' hm.symm
      refine ⟨s, u, store, m, count, hreach, hread, ?_, hpos, hnext, hrest.symm, ?_, hline⟩
      · rw [← hm, String.length_toList]
      · rw [hu.skipLine.drop_position]
        exact hu.skipLine.isAt.delivers
  · exact absurd rfl (hne e)

/-- A newline after `#` is a fault that the reader has taken. -/
theorem loop_reads_on_newline :
    let fault := ReadError.malformed (.unknownLiteral (some '\n')) 2
    ∃ s u store m, Loop.Reaches ⟨1, 1⟩ Store.global (.ofString "#\n1\n2") .initial [] s store ∧
      read 1 s = .error fault u ∧ m + u.source.length = 5 ∧ 1 ≤ m ∧
      u.skipLine.position = afterLine "#\n1\n2".toList m := by
  intro fault
  have hturns : (repl ⟨1, 1⟩ "#\n1\n2" Store.global .initial).1 =
      [] ++ .unreadable fault :: [.printed (.integer 2) "2", .ended] := by with_unfolding_all rfl
  obtain ⟨s, u, store, m, -, hreach, hread, hm, hpos, -, -, -, -, hline⟩ := loop_reads_on hturns
  exact ⟨s, u, store, m, hreach, hread, hm, hpos, (hline rfl).2⟩

/-- After that fault a line is skipped of which nothing has been taken: the reader has taken two
characters, the line of the second is over at place 2, and the loop reads on at place 4. -/
theorem loop_skips_next_line :
    let fault := ReadError.malformed (.unknownLiteral (some '\n')) 2
    ∃ u, read 1 (.ofString "#\n1\n2") = .error fault u ∧ u.source = ['1', '\n', '2'] ∧
      afterLine "#\n1\n2".toList (2 - 1) = 2 ∧ u.skipLine.position = 4 ∧
      (repl ⟨1, 1⟩ "#\n1\n2" Store.global .initial).1 =
        [.unreadable fault, .printed (.integer 2) "2", .ended] := by
  intro fault
  have hread : read 1 (.ofString "#\n1\n2") =
      .error fault ⟨[], ['1', '\n', '2'], 2, false⟩ := by with_unfolding_all rfl
  exact ⟨_, hread, rfl, rfl, by with_unfolding_all rfl, by with_unfolding_all rfl⟩

end SmallScheme
