import SmallScheme.Proofs.Reader.Acceptance
import SmallScheme.Proofs.Reader.Yield

/-!
# Reading datum after datum

Loops over a text read a datum, do something with it and go on, under a bound that is one more
than the number of items in the stream. The bound is never met, because every datum takes at
least one character. `Reads nesting s r` says without a bound that reading from the stream `s`
comes to `r`, and what loops do is proved along it.
-/

namespace SmallScheme.Reader

open CharStream Grammar

/-- `Reads nesting s r`: the data read from the stream `s`, one after the other, and the end of
the reading are `r`. -/
inductive Reads (nesting : Nat) : CharStream → Reading → Prop where
  /-- Only blanks and comments are left. -/
  | ended {s t : CharStream} (h : read nesting s = .ok none t) : Reads nesting s ⟨[], none, t⟩
  /-- What comes next cannot be read. -/
  | fault {s t : CharStream} {e : ReadError} (h : read nesting s = .error e t) :
      Reads nesting s ⟨[], some e, t⟩
  /-- A datum comes next. -/
  | datum {s t : CharStream} {d : Datum} {r : Reading} (h : read nesting s = .ok (some d) t)
      (hr : Reads nesting t r) : Reads nesting s (r.cons d t.position)

variable {nesting count : Nat} {s t : CharStream} {q : Int} {cs : List Char} {d : Datum}

/-- A datum read leaves a text that is shorter. -/
theorem exists_at_of_read (hs : s.At q cs) (h : read nesting s = .ok (some d) t) :
    ∃ r, t.At q r ∧ r.length < cs.length := by
  obtain ⟨cs₁, r, ha, hd, ht⟩ := exists_spells_of_read hs h
  refine ⟨r, ht, ?_⟩
  obtain ⟨c, cs₁, rfl, -⟩ := hd.exists_opensDatum
  have h₁ := hd.isSuffix.length_le
  have h₂ := ha.isSuffix.length_le
  rw [List.tail_cons] at h₁
  rw [List.length_cons] at h₂
  omega

/-- Reading as many data as a text has characters, and one more, comes to its end. -/
theorem reads_readMany (hs : s.At q cs) (h : cs.length < count) :
    Reads nesting s (readMany nesting count s) := by
  induction count generalizing s cs with
  | zero => omega
  | succ count ih =>
    rw [readMany]
    cases hread : read nesting s with
    | error e t => exact .fault hread
    | ok o t =>
      cases o with
      | none => exact .ended hread
      | some d =>
        obtain ⟨r, ht, hr⟩ := exists_at_of_read hs hread
        exact .datum hread (ih ht (by omega))

/-- The bound on a text is enough. -/
theorem length_lt_available (text : String) :
    text.toList.length < (ofString text).available + 1 :=
  Nat.lt_succ_of_le (delivers_ofString text).length_le_available

theorem reads_readAll (nesting : Nat) (text : String) :
    Reads nesting (ofString text) (readAll nesting (.ofString text)) :=
  reads_readMany (at_ofString text) (length_lt_available text)

/-- A reading is known by its data and its error, but for the stream. -/
theorem Reading.eq_mk {r : Reading} {data : List (Datum × Int)} {failure : Option ReadError}
    (hd : r.data = data) (hf : r.failure = failure) : r = ⟨data, failure, r.stream⟩ := by
  subst hd hf
  rfl

/-- The data of a reading. -/
def Reading.content (r : Reading) : List Datum := r.data.map (·.1)

@[simp]
theorem Reading.content_cons (r : Reading) (d : Datum) (p : Int) :
    (r.cons d p).content = d :: r.content := rfl

theorem Reads.isPlain {r : Reading} (h : Reads nesting s r) : ∀ d ∈ r.content, d.IsPlain := by
  induction h with
  | ended | fault => nofun
  | datum h _ ih => exact List.forall_mem_cons.2 ⟨isPlain_of_read h, ih⟩

end SmallScheme.Reader
