import SmallScheme.Proofs.Session.Recovery
import SmallScheme.Proofs.Session.Soundness
import SmallScheme.Proofs.Session.Texts

/-!
# Reading comes to an end

A call of the reader that finds a datum or a fault has taken at least one character, and it does
not give it back. So there are no more data in a text than characters, and the interactive loop
reads at most once for each character and once more at the end. It stops there, unless a numeral
is too long to be converted or an evaluation does not end: all other errors it survives.

## The model

`AtPlace text p s` says that the stream `s` reads on at the place `p` of `text`, whatever has been
pushed back. `Advances` lists what a call of the reader comes to there. For the loop, the turns of
`Loop.Reaches` are counted, one for each call, up to the one of `Loop.Stops`.
-/

namespace SmallScheme

open CharStream Reader Evaluation Sequencing

/-! ### One call of the reader -/

/-- What is to come is the text from place `p` on, and the position is `p`. -/
structure CharStream.AtPlace (text : List Char) (p : Nat) (s : CharStream) : Prop where
  le_length : p ≤ text.length
  position_eq : s.position = p
  delivers : s.Delivers (text.drop p)

/-- The reader, called at the place `p` of the text. -/
inductive Reader.Advances (nesting : Nat) (text : List Char) (p : Nat) (s : CharStream) : Prop
  /-- It comes to the end of the text. -/
  | ended {t : CharStream} (h : read nesting s = .ok none t) (ht : t.AtPlace text text.length)
  /-- It finds a datum, and stops at a later place. -/
  | datum {d : Datum} {t : CharStream} {k : Nat} (h : read nesting s = .ok (some d) t)
      (ht : t.AtPlace text k) (hk : p < k)
  /-- It finds a fault, and stops at a later place. If something nests too deeply, more characters
  are left than levels may nest. -/
  | fault {e : ReadError} {t : CharStream} {k : Nat} (h : read nesting s = .error e t)
      (ht : t.AtPlace text k) (hk : p < k) (hdeep : e.IsDeep → p + nesting < text.length)

section Reading

variable {nesting p : Nat} {text cs : List Char} {q : Int} {s t : CharStream}

theorem CharStream.AtPlace.isAt (h : s.AtPlace text p) : s.At text.length (text.drop p) := by
  refine ⟨h.delivers, ?_⟩
  have hle := h.le_length
  rw [h.position_eq, List.length_drop]
  omega

theorem CharStream.At.atPlace (h : s.At text.length cs) (hcs : cs <:+ text) :
    s.AtPlace text (text.length - cs.length) where
  le_length := Nat.sub_le _ _
  position_eq := by
    have hq := h.position_add
    have hle := hcs.length_le
    omega
  delivers := by
    rw [← List.suffix_iff_eq_drop.1 hcs]
    exact h.delivers

theorem atPlace_ofString (text : String) : (ofString text).AtPlace text.toList 0 :=
  ⟨Nat.zero_le _, rfl, delivers_ofString text⟩

/-- An error of depth is one in any place. -/
theorem ReadError.IsDeep.shift {e : ReadError} (h : e.IsDeep) (δ : Int) : (e.shift δ).IsDeep := by
  cases e <;> exact h

/-- Data nested too deeply need as many characters, whatever has been pushed back: what is read
depends only on the text to come. -/
theorem ReadError.IsDeep.lt_length {e : ReadError} (he : e.IsDeep) (hs : s.At q cs)
    (h : read nesting s = .error e t) : nesting < cs.length := by
  have hstands := stands_ofString (String.ofList cs)
  rw [String.toList_ofList] at hstands
  have hat : (ofString (String.ofList cs)).At (q + (cs.length - q)) cs := by
    rw [show q + (cs.length - q) = cs.length by omega]
    exact hstands.isAt
  rcases read_alike hs hat fun _ ha => ha with ⟨s', _, hread, -⟩ |
    ⟨d, s', _, _, hread, -⟩ | ⟨e, s', t', hread, hread', -⟩
  · cases h.symm.trans hread
  · cases h.symm.trans hread
  · obtain ⟨rfl, rfl⟩ := EStateM.Result.error.inj (h.symm.trans hread)
    exact ((meets_read nesting ⟨cs, hstands, Nat.le_refl _⟩).of_error hread').isDeep (he.shift _)

/-- **A call of the reader gets on**, or comes to the end. -/
theorem CharStream.AtPlace.advances (hs : s.AtPlace text p) (nesting : Nat) :
    Advances nesting text p s := by
  have hlen : (text.drop p).length = text.length - p := List.length_drop
  have hle := hs.le_length
  have htaken : Displaced 0 ((text.drop p).length + 1) 0 (read nesting) (read nesting) :=
    .read nesting
  obtain ⟨o, t, w, r, hread, hw, ht, -⟩ := htaken.alike hs.isAt (Nat.lt_succ_self _)
  have hr : r <:+ text := (hw ▸ List.suffix_append w r).trans (List.drop_suffix p text)
  have hplace := ht.atPlace hr
  have hlt (h : r.length < (text.drop p).length) : p < text.length - r.length := by omega
  cases o with
  | error e =>
    obtain ⟨r', ht', hlt'⟩ := exists_at_of_fault hs.isAt hread
    obtain rfl := ht.delivers.unique ht'.delivers
    refine .fault hread hplace (hlt hlt') fun he => ?_
    have hdeep := he.lt_length hs.isAt hread
    omega
  | ok o =>
    cases o with
    | none =>
      obtain rfl := ht.delivers.unique (at_of_read_eq_none hs.isAt hread).2.delivers
      exact .ended hread hplace
    | some d =>
      obtain ⟨r', ht', hlt'⟩ := exists_at_of_read hs.isAt hread
      obtain rfl := ht.delivers.unique ht'.delivers
      exact .datum hread hplace (hlt hlt')

/-- There are no more data than characters. -/
theorem Reader.Reads.length_data_le {r : Reading} (h : Reads nesting s r) (hs : s.At q cs) :
    r.data.length ≤ cs.length := by
  induction h generalizing cs with
  | ended | fault => exact Nat.zero_le _
  | datum hread _ ih =>
    obtain ⟨cs', ht, hlt⟩ := exists_at_of_read hs hread
    have hle := ih ht
    simp only [Reading.cons, List.length_cons]
    omega

end Reading

/-! ### The loop -/

section Aborting

variable {limits : Limits} {d : Datum} {f : FrameId} {s t : Store} {e : Error}

/-- Evaluating a form and writing its value fails with an error of the language, or it does not
end, or a numeral is too long. -/
theorem error_of_evalPrint (h : evalPrint limits d f s = .error e t) :
    e.isOrdinary = true ∨ (e = .unfinished ∧ evalForm limits d f s = .error .unfinished t) ∨
      e = .digitLimit := by
  rw [evalPrint, bind_apply] at h
  cases hform : evalForm limits d f s with
  | error e' t' =>
    rw [hform] at h
    obtain ⟨rfl, rfl⟩ := EStateM.Result.error.inj h
    rcases error_of_evalForm hform with hord | rfl | ⟨rfl, -⟩
    · exact .inl hord
    · exact .inr (.inl ⟨rfl, rfl⟩)
    · exact .inr (.inr rfl)
  | ok v t' =>
    simp only [hform] at h
    cases hw : v.write limits.nesting with
    | ok text =>
      rw [hw] at h
      cases h
    | error w =>
      rw [hw] at h
      obtain ⟨rfl, -⟩ := EStateM.Result.error.inj h
      cases w <;> exact .inl rfl

end Aborting

namespace Loop

variable {limits : Limits} {f : FrameId} {s s' : CharStream} {store store' : Store} {t : Turn}
  {ts : List Turn} {text cs : List Char} {count : Nat}

/-- The loop stops at the end of the text, at a numeral that is too long, or at an evaluation that
does not end. -/
theorem Stops.eq_ended_or (h : Stops limits f s store t) :
    t = .ended ∨ (∃ form e, t = .aborted form e ∧ e.report limits.nesting = ⟨.digits, none⟩) ∨
      ∃ d store', t = .aborted (some d) .unfinished ∧
        evalForm limits d f store = .error .unfinished store' := by
  cases h with
  | ended => exact .inl rfl
  | unreadable => exact .inr (.inl ⟨_, _, rfl, rfl⟩)
  | aborted _ hv he =>
    rcases error_of_evalPrint hv with hord | ⟨rfl, hform⟩ | rfl
    · rw [he] at hord
      cases hord
    · exact .inr (.inr ⟨_, _, rfl, hform⟩)
    · exact .inr (.inl ⟨_, _, rfl, rfl⟩)

/-- The turns of the loop up to the last, which leave it room: each takes a character. -/
theorem exists_stops (hs : s.Stands text cs) (h : cs.length < count) :
    ∃ before last s' store', (replTurns limits f count s store).1 = before ++ [last] ∧
      before.length ≤ cs.length ∧ Reaches limits f s store before s' store' ∧
      Stops limits f s' store' last := by
  induction count generalizing s cs store with
  | zero => exact absurd h (Nat.not_lt_zero _)
  | succ count ih =>
    rcases replTurns_cases limits f count s store with ⟨t, s', store', hstep, hts⟩ |
      ⟨t, hstop, hts⟩
    · obtain ⟨cs', hs', hlt⟩ := hstep.stands hs
      obtain ⟨before, last, s'', store'', hrun, hlen, hreach, hstop⟩ :=
        ih hs' (show cs'.length < count by omega)
      refine ⟨t :: before, last, s'', store'', ?_, ?_, .step hstep hreach, hstop⟩
      · rw [hts, hrun]
        rfl
      · rw [List.length_cons]
        omega
    · exact ⟨[], t, s, store, hts, Nat.zero_le _, .here, hstop⟩

/-- A turn after which the loop can read again is made, and the loop reads again. -/
theorem replTurns_of_step (h : Step limits f s store t s' store') (count : Nat) :
    (replTurns limits f (count + 1) s store).1 = t :: (replTurns limits f count s' store').1 := by
  cases h with
  | @unreadable e u hread he =>
    cases e with
    | digitLimit => exact absurd rfl he
    | malformed => simp only [replTurns, hread]
  | printed hread hv => simp only [replTurns, hread, hv]
  | failed hread hv he => simp only [replTurns, hread, hv, he, if_true]

/-- Turns that lead on from where the loop starts are made, and one more. -/
theorem Reaches.exists_next (h : Reaches limits f s store ts s' store') (hs : s.Stands text cs)
    (hc : cs.length < count) :
    ∃ t rest, (replTurns limits f count s store).1 = ts ++ t :: rest := by
  induction h generalizing cs count with
  | here =>
    obtain ⟨before, last, -, -, hrun, -⟩ := exists_stops hs hc
    rw [hrun]
    cases before with
    | nil => exact ⟨last, [], rfl⟩
    | cons t before => exact ⟨t, before ++ [last], rfl⟩
  | step hstep _ ih =>
    obtain ⟨cs', hs', hlt⟩ := hstep.stands hs
    obtain ⟨count, rfl⟩ := Nat.exists_eq_add_one_of_ne_zero (Nat.ne_zero_of_lt hc)
    obtain ⟨t', rest, hrun⟩ := ih hs' (show cs'.length < count by omega)
    refine ⟨t', rest, ?_⟩
    rw [replTurns_of_step hstep, hrun]
    rfl

end Loop

/-- **Reading gets on, and so it ends.** At any place of a text the reader comes to the end of the
text, or it finds a datum or a fault and is then at a later place. So reading all data comes to an
end, and there are no more of them than characters.

The interactive loop reads once in every turn. It makes at most one turn for each character, all
of which lead on to the next, and a last one. It goes on wherever it can, that is after a value,
after a fault of the text and after any error of the language in a form or in writing its value.
Each turn writes the prompt once, and then its answer. The last turn is the end of the text, and the
output then ends with the prompt and a newline. Otherwise a numeral was too long to be converted,
or an evaluation has not ended. -/
theorem reading_ends (limits : Limits) (text : String) :
    (∀ p s, s.AtPlace text.toList p → Advances limits.nesting text.toList p s) ∧
    (Reads limits.nesting (.ofString text) (readAll limits.nesting (.ofString text)) ∧
      (readAll limits.nesting (.ofString text)).data.length ≤ text.length) ∧
    ∀ (f : FrameId) (store : Store) (prompt : String),
      let ts := (repl limits text f store).1
      let output := transcript limits.nesting prompt ts
      (∃ before last s store', ts = before ++ [last] ∧ before.length ≤ text.length ∧
        Loop.Reaches limits f (.ofString text) store before s store' ∧
        Loop.Stops limits f s store' last ∧
        (last = .ended ∧ (∃ shown, output = shown ++ (prompt ++ "\n")) ∨
          (∃ form e, last = .aborted form e ∧ e.report limits.nesting = ⟨.digits, none⟩) ∨
          ∃ d store'', last = .aborted (some d) .unfinished ∧
            evalForm limits d f store' = .error .unfinished store'')) ∧
      (∀ before s store', Loop.Reaches limits f (.ofString text) store before s store' →
        ∃ t rest, ts = before ++ t :: rest) ∧
      output = String.join (ts.map fun t => prompt ++ t.answer limits.nesting) := by
  refine ⟨fun p s hs => hs.advances limits.nesting, ⟨reads_readAll _ _, ?_⟩,
    fun f store prompt => ⟨?_, fun before s store' h => ?_, transcript_eq _ _ _⟩⟩
  · rw [← String.length_toList]
    exact (reads_readAll limits.nesting text).length_data_le (at_ofString text)
  · obtain ⟨before, last, s, store', hrun, hlen, hreach, hstop⟩ :=
      Loop.exists_stops (stands_ofString text) (length_lt_available text)
    refine ⟨before, last, s, store', hrun, by rwa [← String.length_toList], hreach, hstop, ?_⟩
    refine hstop.eq_ended_or.imp_left fun hended => ⟨hended, ?_⟩
    refine ⟨String.join (before.map fun t => prompt ++ t.answer limits.nesting), ?_⟩
    rw [show (repl limits text f store).1 = before ++ [last] from hrun, transcript_eq, hended,
      List.map_append, String.join_append]
    simp [Turn.answer]
  · exact h.exists_next (stands_ofString text) (length_lt_available text)

/-- A parenthesis too many is a fault, after which the loop reads again. -/
theorem reading_ends_parenthesis :
    let s := CharStream.ofString ")\n1"
    let fault := ReadError.malformed (.unexpected ')') 1
    s.AtPlace ")\n1".toList 0 ∧ Advances 1 ")\n1".toList 0 s ∧
      ∃ u, Loop.Reaches ⟨1, 1⟩ Store.global s .initial [.unreadable fault] u .initial ∧
        ∃ t rest, (repl ⟨1, 1⟩ ")\n1" Store.global .initial).1 = [.unreadable fault] ++ t :: rest := by
  intro s fault
  obtain ⟨hread, -, hloop⟩ := reading_ends ⟨1, 1⟩ ")\n1"
  have hplace : s.AtPlace ")\n1".toList 0 := atPlace_ofString ")\n1"
  have hfault : read 1 s = .error fault ⟨[], ['\n', '1'], 1, false⟩ := by with_unfolding_all rfl
  have hreach : Loop.Reaches ⟨1, 1⟩ Store.global s .initial [.unreadable fault] _ .initial :=
    .step (.unreadable hfault nofun) .here
  exact ⟨hplace, hread 0 s hplace, _, hreach, (hloop Store.global .initial "").2.1 _ _ _ hreach⟩

end SmallScheme
