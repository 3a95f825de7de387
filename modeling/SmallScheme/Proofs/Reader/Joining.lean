import SmallScheme.Proofs.Reader.Displacement
import SmallScheme.Proofs.Reader.Texts

/-!
# Texts joined by a newline

A newline ends every token that the end of the text ends, and every comment, and is itself a
blank. So a text that can be read to its end is read as before when a newline and any other
text follow, and the other text is read as if it stood alone, only further on
(`readAll_joined`).

The first half is a property of the grammar: whatever a text spells, it spells before a
newline. The one exception are blanks and comments up to the end of the text, for a comment
takes the newline with it.
-/

namespace SmallScheme

namespace Grammar

/-! ### More text after a newline -/

theorem AtDelimiter.append_newline {r : List Char} (h : AtDelimiter r) (more : List Char) :
    AtDelimiter (r ++ '\n' :: more) := by
  cases r with
  | nil => rfl
  | cons c r => exact h

theorem Run.append_newline {p : Char → Bool} {ds cs r : List Char} (h : Run p ds cs r)
    (hp : p '\n' = false) (more : List Char) :
    Run p ds (cs ++ '\n' :: more) (r ++ '\n' :: more) where
  eq_append := by rw [h.eq_append, List.append_assoc]
  all := h.all
  maximal := by
    cases r with
    | nil => simpa using hp
    | cons c r => exact h.maximal

theorem StringItems.append {body cs r : List Char} (h : StringItems body cs r)
    (more : List Char) : StringItems body (cs ++ more) (r ++ more) := by
  obtain ⟨w, rfl⟩ := h.isSuffix
  rw [List.append_assoc]
  exact h.of_append (r ++ more)

theorem Atom.append_newline {v : Datum} {cs r : List Char} (h : Atom v cs r)
    (more : List Char) : Atom v (cs ++ '\n' :: more) (r ++ '\n' :: more) := by
  cases h with
  | boolean hr => exact .boolean (hr.append_newline more)
  | character hw hr =>
    simp only [List.cons_append, List.append_assoc]
    exact .character hw (hr.append_newline more)
  | integer hw hk hr =>
    rw [List.append_assoc]
    exact .integer hw hk (hr.append_newline more)
  | string h => exact .string (h.append _)
  | symbol hc h => exact .symbol hc (h.append_newline (by decide) more)
  | sign hc hr => exact .sign hc (hr.append_newline more)

/-- Blanks and comments that something follows are still followed by it when there is more. -/
theorem Atmosphere.append {cs r : List Char} (h : Atmosphere cs r) (hr : r ≠ [])
    (more : List Char) : Atmosphere (cs ++ more) (r ++ more) := by
  obtain ⟨w, rfl⟩ := h.isSuffix
  obtain ⟨c, r, rfl⟩ := List.exists_cons_of_ne_nil hr
  rw [List.append_assoc]
  exact h.of_head? rfl

/-- Blanks and comments up to the end of a text go on behind a newline. -/
theorem Atmosphere.append_newline {cs more r : List Char} (h : Atmosphere cs [])
    (hm : Atmosphere more r) : Atmosphere (cs ++ '\n' :: more) r := by
  generalize he : ([] : List Char) = e at h
  induction h with
  | nil =>
    subst he
    exact .blank (by decide) hm
  | blank hc _ ih => exact .blank hc (ih he)
  | comment hw _ ih =>
    simp only [List.cons_append, List.append_assoc]
    exact .comment hw (ih he)
  | lastComment hw => exact .comment hw hm

theorem Spells.ne_nil {n : Nat} {v : Datum} {cs r : List Char} (h : Spells n v cs r) :
    cs ≠ [] := by
  obtain ⟨c, cs, rfl, -⟩ := h.exists_opensDatum
  exact List.cons_ne_nil c cs

mutual

/-- What spells a datum spells it before a newline. -/
theorem Spells.append_newline : ∀ {n : Nat} {v : Datum} {cs r : List Char}, Spells n v cs r →
    ∀ more, Spells n v (cs ++ '\n' :: more) (r ++ '\n' :: more)
  | _, _, _, _, .atom h, more => .atom (h.append_newline more)
  | _, _, _, _, .list h ha, more => .list (h.append_newline more) (ha.append (by simp) _)
  | _, _, _, _, .improper hne h ha hd hb ht hc, more =>
    .improper hne (h.append_newline more) (ha.append (by simp) _) (hd.append_newline more)
      (hb.append ht.ne_nil _) (ht.append_newline more) (hc.append (by simp) _)
  | _, _, _, _, .quote ha h, more => .quote (ha.append h.ne_nil _) (h.append_newline more)

theorem Elements.append_newline : ∀ {n : Nat} {vs : List Datum} {cs r : List Char},
    Elements n vs cs r → ∀ more, Elements n vs (cs ++ '\n' :: more) (r ++ '\n' :: more)
  | _, _, _, _, .nil, _ => .nil
  | _, _, _, _, .cons ha h hs, more =>
    .cons (ha.append h.ne_nil _) (h.append_newline more) (hs.append_newline more)

end

end Grammar

namespace Reader

open CharStream Grammar

variable {nesting count : Nat} {s t : CharStream} {q δ : Int} {cs cs' : List Char} {r : Reading}

/-- The data of a reading, as they are found `δ` further on. -/
def Reading.dataAt (δ : Int) (r : Reading) : List (Datum × Int) :=
  r.data.map fun entry => (entry.1, entry.2 + δ)

/-- Reading a text in another place gives the same, in that place. -/
theorem exists_readMany_displaced (h : Reads nesting s r) (hs : s.At q cs)
    (ht : t.At (q + δ) cs') (ha : ∀ r, Atmosphere cs r → Atmosphere cs' r)
    (hc : cs'.length < count) :
    ∃ u, readMany nesting count t = ⟨r.dataAt δ, r.failure.map (ReadError.shift δ), u⟩ ∧
      u.position = r.stream.position + δ := by
  induction h generalizing t cs cs' count with
  | ended hread =>
    obtain ⟨count, rfl⟩ := Nat.exists_eq_add_one_of_ne_zero (Nat.ne_zero_of_lt hc)
    rcases read_alike hs ht ha with ⟨_, t', h, h', hpos⟩ | ⟨_, _, _, _, h, -⟩ | ⟨_, _, _, h, -⟩ <;>
      cases hread.symm.trans h
    rw [readMany, h']
    exact ⟨t', rfl, hpos⟩
  | fault hread =>
    obtain ⟨count, rfl⟩ := Nat.exists_eq_add_one_of_ne_zero (Nat.ne_zero_of_lt hc)
    rcases read_alike hs ht ha with ⟨_, _, h, -⟩ | ⟨_, _, _, _, h, -⟩ | ⟨_, _, t', h, h', hpos⟩ <;>
      cases hread.symm.trans h
    rw [readMany, h']
    exact ⟨t', rfl, hpos⟩
  | @datum s s' d r hread _ ih =>
    obtain ⟨count, rfl⟩ := Nat.exists_eq_add_one_of_ne_zero (Nat.ne_zero_of_lt hc)
    rcases read_alike hs ht ha with
      ⟨_, _, h, -⟩ | ⟨_, _, t', r', h, h', hs', ht'⟩ | ⟨_, _, _, h, -⟩ <;>
      cases hread.symm.trans h
    -- from here on the two texts are the same
    obtain ⟨r'', ht'', hlt⟩ := exists_at_of_read ht h'
    obtain rfl := ht''.delivers.unique ht'.delivers
    obtain ⟨u, hu, hpos⟩ := ih hs' ht' (fun _ ha => ha) (show r''.length < count by omega)
    refine ⟨u, ?_, hpos⟩
    rw [readMany, h']
    simp only [hu, Reading.cons, Reading.dataAt, List.map_cons, hs'.position_eq ht']

/-- A text that is read to its end is read the same before a newline, and after that comes what
follows the newline. -/
theorem exists_readMany_joined {text : String} (h : Reads nesting s r) (hnone : r.failure = none)
    (hs : s.At q cs) (ht : t.At (text.toList.length + (q + 1)) (cs ++ '\n' :: text.toList))
    (hc : (cs ++ '\n' :: text.toList).length < count) :
    let next := readAll nesting (.ofString text)
    ∃ u, readMany nesting count t =
        ⟨r.data ++ next.dataAt (q + 1), next.failure.map (ReadError.shift (q + 1)), u⟩ ∧
      u.position = next.stream.position + (q + 1) := by
  intro next
  induction h generalizing t cs count with
  | ended hread =>
    have ha : Atmosphere cs [] := (read_eq_none_iff hs).1 ⟨_, hread⟩
    exact exists_readMany_displaced (reads_readAll nesting text) (at_ofString text) ht
      (fun _ hm => ha.append_newline hm) hc
  | fault => cases hnone
  | @datum s s' d r hread _ ih =>
    obtain ⟨count, rfl⟩ := Nat.exists_eq_add_one_of_ne_zero (Nat.ne_zero_of_lt hc)
    obtain ⟨cs₁, rest, ha, hd, hs'⟩ := exists_spells_of_read hs hread
    obtain ⟨t', hread', ht'⟩ :=
      read_of_spells ht (ha.append hd.ne_nil _) (hd.append_newline text.toList)
    obtain ⟨rest', ht'', hlt⟩ := exists_at_of_read ht hread'
    obtain rfl := ht''.delivers.unique ht'.delivers
    obtain ⟨u, hu, hend⟩ :=
      ih hnone hs' ht' (show (rest ++ '\n' :: text.toList).length < count by omega)
    have hpos : t'.position = s'.position := by
      have h₁ := hs'.position_add
      have h₂ := ht'.position_add
      simp only [List.length_append, List.length_cons] at h₂
      omega
    refine ⟨u, ?_, hend⟩
    rw [readMany, hread']
    simp only [hu, Reading.cons, List.cons_append, hpos]

/-- **Reading texts joined by a newline is reading one after the other.** If the first text can
be read to its end, its data come first, with their positions; then come the data of the second
text and its error, if it has one, with their positions shifted, and reading stops where it
does in the second text, shifted as well. -/
theorem readAll_joined {a : String} (b : String)
    (ha : (readAll nesting (.ofString a)).failure = none) :
    let δ : Int := a.length + 1
    let joined := readAll nesting (.ofString (a ++ "\n" ++ b))
    joined.data = (readAll nesting (.ofString a)).data ++
        (readAll nesting (.ofString b)).dataAt δ ∧
      joined.failure = (readAll nesting (.ofString b)).failure.map (ReadError.shift δ) ∧
      joined.stream.position = (readAll nesting (.ofString b)).stream.position + δ := by
  intro δ joined
  have htext : (a ++ "\n" ++ b).toList = a.toList ++ '\n' :: b.toList := by
    simp [String.toList_append]
  have ht := at_ofString (a ++ "\n" ++ b)
  have hc := length_lt_available (a ++ "\n" ++ b)
  rw [htext] at ht hc
  have hq : ((a.toList ++ '\n' :: b.toList).length : Int) =
      b.toList.length + (a.toList.length + 1) := by
    simp only [List.length_append, List.length_cons]
    omega
  rw [hq] at ht
  obtain ⟨u, hu, hend⟩ := exists_readMany_joined (reads_readAll nesting a) ha (at_ofString a) ht hc
  have hjoined : joined = _ := hu
  have hδ : δ = a.toList.length + 1 := by rw [String.length_toList]
  rw [hjoined, hδ]
  exact ⟨rfl, rfl, hend⟩

end Reader

end SmallScheme
