import SmallScheme.Proofs.Reader.Recognition

/-!
# The reader accepts its grammar

Given that the data inside a datum are read by the grammar, so is the datum; by induction
on the levels that may nest, `readDatum` recognizes `Spells`. The elements of a list are
read in a loop: its budget is never used up, since every element takes a character of
the text that is to come.

The main statement: from any point of a text, the reader answers with a datum and stops at
a position exactly when blanks and comments and a spelling of the datum lead there.
-/

namespace SmallScheme.Reader

open CharStream Grammar Sequencing

variable {b n : Nat} {inner : Char → ReadM Datum}

/-! ### Which reader a character calls for -/

theorem readFrom_of_isDigit {c : Char} (h : c.isDigit = true) :
    readFrom inner b c = readNumber false [c] := by
  have hc : c ≠ '#' := by
    rintro rfl
    cases h
  rw [readFrom, if_neg hc, if_pos h]

theorem readFrom_of_sign {c : Char} (h : c = '+' ∨ c = '-') :
    readFrom inner b c = readSigned c := by
  rcases h with rfl | rfl <;> rfl

theorem readFrom_of_isInitial {c : Char} (h : isInitial c = true) :
    readFrom inner b c = readSymbol c := by
  have hne : ∀ {d}, isInitial d = false → c ≠ d := by
    rintro d hd rfl
    rw [hd] at h
    cases h
  have hd : ¬ c.isDigit = true := by
    intro hd
    rw [isInitial_eq_false_of_isDigit hd] at h
    cases h
  have hsign : ¬ (c = '+' ∨ c = '-') := not_or.2 ⟨hne (by decide), hne (by decide)⟩
  rw [readFrom, if_neg (hne (by decide)), if_neg hd, if_neg hsign, if_neg (hne (by decide)),
    if_pos h]

namespace Recognizes

/-! ### Lists -/

section Inner

variable (hin : ∀ c, Recognizes b (inner c) fun v cs r => Spells n v (c :: cs) r)

include hin

/-- A datum that has to follow. -/
theorem readRequired (awaiting : Awaiting) : Recognizes b (readRequired inner awaiting)
    fun v cs r => ∃ cs₁, Atmosphere cs cs₁ ∧ Spells n v cs₁ r := by
  refine of_iff (bind_nextToken (fail _) fun c => (hin c).mono (Nat.sub_le b 1)) ?_
  intro v cs r
  constructor
  · rintro ⟨cs₁, ha, h⟩
    obtain ⟨c, cs₁, rfl, hc⟩ := h.exists_opensDatum
    exact ⟨c, cs₁, ha, isTrimmed_of_opensDatum hc, h⟩
  · rintro ⟨c, cs₁, ha, -, h⟩
    exact ⟨c :: cs₁, ha, h⟩

/-- The tail of an improper list. -/
theorem readTail : Recognizes b (readTail inner) fun v cs r => AtDelimiter cs ∧
    ∃ cs₁ cs₂, Atmosphere cs cs₁ ∧ Spells n v cs₁ cs₂ ∧ Atmosphere cs₂ (')' :: r) := by
  refine of_iff ((expectDelimiter _).bind fun _ => (readRequired hin _).bind fun tail =>
    bind_nextToken (fail _) fun c => ite (fun _ => pure tail) fun _ => fail _) ?_
  intro v cs r
  constructor
  · rintro ⟨hd, cs₁, cs₂, ha, h, hb⟩
    exact ⟨(), cs, ⟨hd, rfl⟩, v, cs₂, ⟨cs₁, ha, h⟩, ')', r, hb,
      isTrimmed_cons_iff.2 (by decide), .inl ⟨rfl, rfl, rfl⟩⟩
  · rintro ⟨_, _, ⟨hd, rfl⟩, tail, cs₂, ⟨cs₁, ha, h⟩, c, _, hb, -, ⟨hc, rfl, rfl⟩ | ⟨-, hf⟩⟩
    · cases hc
      exact ⟨hd, cs₁, cs₂, ha, h, hb⟩
    · exact hf.elim

end Inner

/-- The loop over the elements of a list. The budget is great enough, for every round takes
at least one character. -/
theorem readItems (hin : ∀ c, Recognizes b (inner c) fun v cs r => Spells n v (c :: cs) r)
    {budget : Nat} (hb : budget ≤ b) (items : List Datum) :
    Recognizes budget (readItems inner budget items) (ListRest n items.reverse) := by
  induction budget generalizing items with
  | zero =>
    exact ⟨fun _ h _ => absurd h (Nat.not_lt_zero _), fun _ h _ => absurd h (Nat.not_lt_zero _),
      ListRest.length_le⟩
  | succ budget ih =>
    have hin' : ∀ c, Recognizes budget (inner c) fun v cs r => Spells n v (c :: cs) r :=
      fun c => (hin c).mono (by omega)
    refine of_iff (bind_nextToken (fail _) fun c => ite (fun _ => pure _) fun _ =>
      ite (fun _ => ite (fun _ => fail _) fun _ => (readTail hin').bind fun tail => pure _)
        fun _ => (hin' c).bind fun v => ih (by omega) (v :: items)) ?_
    intro v cs r
    constructor
    · rintro ⟨vs, tail, cs₁, hs, he, rfl⟩
      -- without another element the token ends the list; with one it opens a datum
      cases hs with
      | nil =>
        rw [List.append_nil] at he ⊢
        cases he with
        | close ha =>
          exact ⟨')', r, ha, isTrimmed_cons_iff.2 (by decide), .inl ⟨rfl, rfl, rfl⟩⟩
        | @dot _ _ cs₁ cs₂ cs₃ _ hne ha hd hb ht hc =>
          have hitems : ¬ items.isEmpty = true := by simpa using hne
          exact ⟨'.', cs₁, ha, isTrimmed_cons_iff.2 (by decide), .inr ⟨by decide, .inl ⟨rfl,
            .inr ⟨hitems, tail, r, ⟨hd, cs₂, cs₃, hb, ht, hc⟩, rfl, rfl⟩⟩⟩⟩
      | @cons _ a vs _ cs₂ cs₃ _ ha h hs =>
        obtain ⟨c, cs₂, rfl, hc⟩ := h.exists_opensDatum
        refine ⟨c, cs₂, ha, isTrimmed_of_opensDatum hc, .inr ⟨?_, .inr ⟨?_, a, cs₃, h, ?_⟩⟩⟩
        · rintro rfl
          exact hc.2 (by simp)
        · rintro rfl
          exact hc.2 (by simp)
        · refine ⟨vs, tail, cs₁, hs, ?_, ?_⟩
          · rw [List.reverse_cons, List.append_assoc, List.singleton_append]
            exact he
          · rw [List.reverse_cons, List.append_assoc, List.singleton_append]
    · rintro ⟨c, cs₁, ha, -, ⟨rfl, rfl, rfl⟩ | ⟨-, ⟨rfl, ⟨-, hf⟩ | ⟨hne, tail, _,
        ⟨hd, cs₂, cs₃, hb, ht, hc⟩, rfl, rfl⟩⟩ | ⟨-, a, cs₂, h, hs⟩⟩⟩
      · refine ⟨[], .nil, cs, .nil, .close ha, ?_⟩
        rw [List.append_nil]
      · exact hf.elim
      · refine ⟨[], tail, cs, .nil, .dot ?_ ha hd hb ht hc, ?_⟩
        · simpa using hne
        · rw [List.append_nil]
      · rw [List.reverse_cons] at hs
        exact .cons ha h hs

/-! ### Data -/

theorem readQuoted (hin : ∀ c, Recognizes b (inner c) fun v cs r => Spells n v (c :: cs) r) :
    Recognizes (α := Datum) b (do
      return .ofList () [.symbol .quote, ← Reader.readRequired inner .quotedDatum] .nil)
      fun v cs r => ∃ d cs₁, Atmosphere cs cs₁ ∧ Spells n d cs₁ r ∧
        v = .ofList () [.symbol .quote, d] .nil := by
  refine of_iff ((readRequired hin .quotedDatum).bind fun d => pure _) ?_
  intro v cs r
  constructor
  · rintro ⟨d, cs₁, ha, h, rfl⟩
    exact ⟨d, r, ⟨cs₁, ha, h⟩, rfl, rfl⟩
  · rintro ⟨d, _, ⟨cs₁, ha, h⟩, rfl, rfl⟩
    exact ⟨d, cs₁, ha, h, rfl⟩

/-- A datum is read by the grammar if the data inside it are. -/
theorem readFrom (hin : ∀ c, Recognizes b (inner c) fun v cs r => Spells n v (c :: cs) r)
    (c : Char) : Recognizes b (readFrom inner b c) fun v cs r => Spells (n + 1) v (c :: cs) r where
  sound {q s t cs v} hs hb h := by
    rw [Reader.readFrom] at h
    split at h
    · next hc =>
      subst hc
      obtain ⟨r, ⟨hr, ⟨a, rfl, rfl⟩ | ⟨c, w, hw, rfl, rfl⟩⟩, ht⟩ := readHash.sound hs hb h
      · exact ⟨r, .atom (.boolean hr), ht⟩
      · exact ⟨r, .atom (.character hw hr), ht⟩
    split at h
    · next hc =>
      obtain ⟨r, ⟨hr, ds, hds, rfl, hv, rfl⟩, ht⟩ := (readNumber false [c]).sound hs hb h
      have hw : Numeral _ (c :: ds) := .digits (by simp) (by simpa [hc] using hds)
      exact ⟨r, .atom (.integer hw hv hr), ht⟩
    split at h
    · next hc =>
      obtain ⟨r, ⟨hr, ⟨rfl, ds, hne, hds, rfl, hv, rfl⟩ | ⟨rfl, rfl⟩⟩, ht⟩ :=
        (readSigned c).sound hs hb h
      · exact ⟨r, .atom (.integer (.negative hne hds) hv hr), ht⟩
      · exact ⟨cs, .atom (.sign hc hr), ht⟩
    split at h
    · next hc =>
      subst hc
      obtain ⟨r, ⟨body, hbody, rfl⟩, ht⟩ := readString.sound hs hb h
      exact ⟨r, .atom (.string hbody), ht⟩
    split at h
    · next hc =>
      obtain ⟨r, ⟨ds, hds, rfl⟩, ht⟩ := (readSymbol c).sound hs hb h
      exact ⟨r, .atom (.symbol hc hds), ht⟩
    split at h
    · next hc =>
      subst hc
      obtain ⟨r, hr, ht⟩ := (readItems hin (Nat.le_refl b) []).sound hs hb h
      exact ⟨r, hr.spells, ht⟩
    split at h
    · next hc =>
      subst hc
      obtain ⟨r, ⟨d, cs₁, ha, hd, rfl⟩, ht⟩ := (readQuoted hin).sound hs hb h
      exact ⟨r, .quote ha hd, ht⟩
    · obtain ⟨r, hf, -⟩ := (fail _).sound hs hb h
      exact hf.elim
  complete {q s cs r v} hs hb h := by
    generalize hx : c :: cs = x at h
    cases h with
    | atom h =>
      cases h with
      | boolean hr =>
        cases hx
        exact readHash.complete hs hb ⟨hr, .inl ⟨_, rfl, rfl⟩⟩
      | character hw hr =>
        cases hx
        exact readHash.complete hs hb ⟨hr, .inr ⟨_, _, hw, rfl, rfl⟩⟩
      | integer hw hk hr =>
        cases hw with
        | @digits ds hne hds =>
          obtain ⟨d, ds, rfl⟩ := List.exists_cons_of_ne_nil hne
          cases hx
          rw [readFrom_of_isDigit (hds c (List.mem_cons_self ..))]
          exact (readNumber false [c]).complete hs hb
            ⟨hr, ds, fun d hd => hds d (List.mem_cons_of_mem c hd), rfl, hk, rfl⟩
        | negative hne hds =>
          cases hx
          rw [readFrom_of_sign (.inr rfl)]
          exact (readSigned '-').complete hs hb ⟨hr, .inl ⟨rfl, _, hne, hds, rfl, hk, rfl⟩⟩
      | string hbody =>
        cases hx
        exact readString.complete hs hb ⟨_, hbody, rfl⟩
      | symbol hc hds =>
        cases hx
        rw [readFrom_of_isInitial hc]
        exact (readSymbol c).complete hs hb ⟨_, hds, rfl⟩
      | sign hc hr =>
        cases hx
        rw [readFrom_of_sign hc]
        exact (readSigned c).complete hs hb ⟨hr, .inr ⟨rfl, rfl⟩⟩
    | list hvs ha =>
      cases hx
      exact (readItems hin (Nat.le_refl b) []).complete hs hb ⟨_, _, _, hvs, .close ha, rfl⟩
    | improper hne hvs ha hd hb' hv hc =>
      cases hx
      exact (readItems hin (Nat.le_refl b) []).complete hs hb
        ⟨_, _, _, hvs, .dot hne ha hd hb' hv hc, rfl⟩
    | quote ha hd =>
      cases hx
      exact (readQuoted hin).complete hs hb ⟨_, _, ha, hd, rfl⟩
  length_le h := h.isSuffix.length_le

/-- A datum is read by the grammar, as deep as it may nest. -/
theorem readDatum (b nesting : Nat) (c : Char) :
    Recognizes b (readDatum b nesting c) fun v cs r => Spells nesting v (c :: cs) r := by
  induction nesting generalizing c with
  | zero =>
    refine (fail _).of_iff ?_
    intro v cs r
    constructor
    · rintro ⟨⟩
    · exact False.elim
  | succ nesting ih => exact readFrom ih c

end Recognizes

/-! ### Reading from any point of a text -/

section Read

variable {q : Int} {s t : CharStream} {cs : List Char}

/-- A datum read was spelt after blanks and comments. -/
theorem exists_spells_of_read {nesting : Nat} {v : Datum} (hs : s.At q cs)
    (h : read nesting s = .ok (some v) t) :
    ∃ cs₁ r, Atmosphere cs cs₁ ∧ Spells nesting v cs₁ r ∧ t.At q r := by
  obtain ⟨item, u, hu, h⟩ := bind_eq_ok_iff.1 h
  obtain ⟨_, ⟨cs₁, ha, -, rfl, rfl⟩, hu⟩ := Recognizes.nextToken.sound hs (Nat.lt_succ_self _) hu
  cases cs₁ with
  | nil => cases h
  | cons c cs₁ =>
    obtain ⟨_, _, hget, h⟩ := bind_eq_ok_iff.1 h
    cases hget
    obtain ⟨v', t', hv, h⟩ := bind_eq_ok_iff.1 h
    cases h
    have hle := Nat.lt_succ_of_le hu.delivers.length_le_available
    obtain ⟨r, hr, ht⟩ := (Recognizes.readDatum _ nesting c).sound hu hle hv
    exact ⟨c :: cs₁, r, ha, hr, ht⟩

/-- A datum spelt after blanks and comments is read. -/
theorem read_of_spells {nesting : Nat} {v : Datum} {cs₁ r : List Char} (hs : s.At q cs)
    (ha : Atmosphere cs cs₁) (h : Spells nesting v cs₁ r) :
    ∃ t, read nesting s = .ok (some v) t ∧ t.At q r := by
  obtain ⟨c, cs₁, rfl, hc⟩ := h.exists_opensDatum
  obtain ⟨u, hu, hat⟩ := Recognizes.nextToken.complete hs (Nat.lt_succ_self _)
    ⟨_, ha, isTrimmed_of_opensDatum hc, rfl, rfl⟩
  have hle := Nat.lt_succ_of_le hat.delivers.length_le_available
  obtain ⟨t, hv, ht⟩ := (Recognizes.readDatum _ nesting c).complete hat hle h
  refine ⟨t, ?_, ht⟩
  rw [read, bind_of_ok hu]
  exact bind_eq_ok_iff.2 ⟨_, _, rfl, bind_eq_ok_iff.2 ⟨_, _, hv, rfl⟩⟩

/-- If no datum is found, all that is left are blanks and comments, and they have been taken. -/
theorem at_of_read_eq_none {nesting : Nat} (hs : s.At q cs) (h : read nesting s = .ok none t) :
    Atmosphere cs [] ∧ t.At q [] := by
  obtain ⟨item, u, hu, h⟩ := bind_eq_ok_iff.1 h
  obtain ⟨_, ⟨cs₁, ha, -, rfl, rfl⟩, hat⟩ := Recognizes.nextToken.sound hs (Nat.lt_succ_self _) hu
  cases cs₁ with
  | nil =>
    cases h
    exact ⟨ha, hat⟩
  | cons c cs₁ =>
    obtain ⟨_, _, hget, h⟩ := bind_eq_ok_iff.1 h
    obtain ⟨_, _, _, h⟩ := bind_eq_ok_iff.1 h
    cases h

/-- No datum is found when only blanks and comments are left. -/
theorem read_eq_none_iff {nesting : Nat} (hs : s.At q cs) :
    (∃ t, read nesting s = .ok none t) ↔ Atmosphere cs [] := by
  constructor
  · rintro ⟨t, h⟩
    exact (at_of_read_eq_none hs h).1
  · intro ha
    obtain ⟨u, hu, -⟩ := Recognizes.nextToken.complete hs (Nat.lt_succ_self _)
      ⟨[], ha, by simp [IsTrimmed], rfl, rfl⟩
    exact ⟨u, by rw [read, bind_of_ok hu]; rfl⟩

end Read

/-- **The reader accepts its grammar and nothing else.** Wherever a stream stands in a text,
with `cs` to come: it answers with the datum `v` and stops at position `p` exactly when
blanks and comments `a` and then a spelling `w` of `v` lead there, and what comes after them
is what the stream delivers from then on. It finds no datum exactly when blanks and comments
are all that is left, and in every other case it fails. -/
theorem read_iff_spells {s : CharStream} {cs : List Char} (hs : s.Delivers cs) (nesting : Nat) :
    (∀ v p r, (∃ t, read nesting s = .ok (some v) t ∧ t.position = p ∧ t.Delivers r) ↔
      ∃ a w, cs = a ++ (w ++ r) ∧ p = s.position + (a.length + w.length) ∧
        Atmosphere cs (w ++ r) ∧ Spells nesting v (w ++ r) r) ∧
    (∀ v t, read nesting s = .ok (some v) t → ∃ r, t.Delivers r) ∧
    ((∃ t, read nesting s = .ok none t) ↔ Atmosphere cs []) ∧
    ((∃ e t, read nesting s = .error e t) ↔
      ¬ Atmosphere cs [] ∧ ¬ ∃ cs₁ v r, Atmosphere cs cs₁ ∧ Spells nesting v cs₁ r) := by
  have hat : s.At (s.position + cs.length) cs := ⟨hs, rfl⟩
  refine ⟨?_, ?_, read_eq_none_iff hat, ?_⟩
  · intro v p r
    constructor
    · rintro ⟨t, hread, rfl, hr⟩
      obtain ⟨cs₁, r', ha, h, ht⟩ := exists_spells_of_read hat hread
      obtain rfl := ht.delivers.unique hr
      obtain ⟨w, rfl⟩ := h.isSuffix.trans (List.tail_suffix _)
      obtain ⟨a, rfl⟩ := ha.isSuffix
      refine ⟨a, w, rfl, ?_, ha, h⟩
      have hq := ht.position_add
      simp only [List.length_append] at hq
      omega
    · rintro ⟨a, w, hcs, rfl, ha, h⟩
      obtain ⟨t, hread, ht⟩ := read_of_spells hat ha h
      refine ⟨t, hread, ?_, ht.delivers⟩
      have hq := ht.position_add
      rw [hcs] at hq
      simp only [List.length_append] at hq
      omega
  · intro v t hread
    obtain ⟨_, r, -, -, ht⟩ := exists_spells_of_read hat hread
    exact ⟨r, ht.delivers⟩
  · constructor
    · rintro ⟨e, t, hread⟩
      refine ⟨?_, ?_⟩
      · intro ha
        obtain ⟨u, hu⟩ := (read_eq_none_iff hat).2 ha
        rw [hread] at hu
        cases hu
      · rintro ⟨cs₁, v, r, ha, h⟩
        obtain ⟨u, hu, -⟩ := read_of_spells hat ha h
        rw [hread] at hu
        cases hu
    · rintro ⟨hnone, hsome⟩
      cases hread : read nesting s with
      | error e t => exact ⟨e, t, rfl⟩
      | ok d t =>
        cases d with
        | none => exact absurd ((read_eq_none_iff hat).1 ⟨t, hread⟩) hnone
        | some v =>
          obtain ⟨cs₁, r, ha, h, -⟩ := exists_spells_of_read hat hread
          exact absurd ⟨cs₁, v, r, ha, h⟩ hsome

/-- A comment, an improper list, and a character after it that is left alone. -/
theorem read_improper_list :
    let s := CharStream.ofString ";\n(a . b)c"
    s.Delivers [';', '\n', '(', 'a', ' ', '.', ' ', 'b', ')', 'c'] ∧
      ∃ t, read 2 s = .ok (some (.pair () (.symbol ⟨"a"⟩) (.symbol ⟨"b"⟩))) t ∧
        t.position = 9 ∧ t.Delivers ['c'] := by
  intro s
  have hs : s.Delivers [';', '\n', '(', 'a', ' ', '.', ' ', 'b', ')', 'c'] :=
    delivers_ofString ";\n(a . b)c"
  refine ⟨hs, ((read_iff_spells hs 2).1 _ _ _).2 ⟨[';', '\n'],
    ['(', 'a', ' ', '.', ' ', 'b', ')'], rfl, rfl, .comment (w := []) (by simp) .nil, ?_⟩⟩
  have ha : Spells 1 (.symbol ⟨"a"⟩) ['a', ' ', '.', ' ', 'b', ')', 'c']
      [' ', '.', ' ', 'b', ')', 'c'] :=
    .atom (.symbol (by decide) ⟨rfl, by simp, by rintro _ ⟨⟩; decide⟩)
  have hb : Spells 1 (.symbol ⟨"b"⟩) ['b', ')', 'c'] [')', 'c'] :=
    .atom (.symbol (by decide) ⟨rfl, by simp, by rintro _ ⟨⟩; decide⟩)
  exact .improper (by simp) (.cons .nil ha .nil) (.blank (by decide) .nil) (by decide)
    (.blank (by decide) .nil) hb .nil

end SmallScheme.Reader
