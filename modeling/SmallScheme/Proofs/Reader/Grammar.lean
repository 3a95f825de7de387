import Mathlib.Data.List.TakeWhile
import Mathlib.Tactic.Tauto
import SmallScheme.Reader.Atom

/-!
# The grammar of the reader

What texts stand for, said without a reader. Every rule relates a text to what is left of
it: `Spells n v cs r` says that `cs` begins with a spelling of the datum `v` and that `r`
follows it. So a rule can speak of the character that follows, as most rules for atoms
do: a token ends at a delimiter.

The number `n` bounds how deep data may nest in one another.
-/

namespace SmallScheme

/-! ### Classes of characters -/

namespace Text

theorem inRanges_eq_true_iff {rs : List (Nat × Nat)} {n : Nat} :
    inRanges rs n = true ↔ ∃ p ∈ rs, p.1 ≤ n ∧ n ≤ p.2 := by
  simp [inRanges]

/-- A code point lies in two tables only if they have ranges that overlap. -/
theorem inRanges_eq_false_of_disjoint {rs rs' : List (Nat × Nat)}
    (h : ∀ p ∈ rs, ∀ p' ∈ rs', p.2 < p'.1 ∨ p'.2 < p.1) {n : Nat} (hn : inRanges rs n = true) :
    inRanges rs' n = false := by
  rw [Bool.eq_false_iff]
  intro hn'
  obtain ⟨p, hp, h₁, h₂⟩ := inRanges_eq_true_iff.1 hn
  obtain ⟨p', hp', h₁', h₂'⟩ := inRanges_eq_true_iff.1 hn'
  have := h p hp p' hp'
  omega

theorem isAlpha_eq_inRanges (c : Char) :
    c.isAlpha = inRanges [(0x41, 0x5A), (0x61, 0x7A)] c.toNat := by
  unfold Char.isAlpha Char.isUpper Char.isLower
  simp [inRanges, UInt32.le_iff_toNat_le]

theorem isDigit_eq_inRanges (c : Char) : c.isDigit = inRanges [(0x30, 0x39)] c.toNat := by
  simp [Char.isDigit, inRanges, UInt32.le_iff_toNat_le]

theorem isLetter_eq_false_of_isBlank {c : Char} (h : isBlank c = true) : isLetter c = false := by
  rw [isLetter, isAlpha_eq_inRanges]
  split
  · exact inRanges_eq_false_of_disjoint (by decide) h
  · exact inRanges_eq_false_of_disjoint (by decide +kernel) h

theorem isLetter_eq_false_of_isDigit {c : Char} (h : c.isDigit = true) : isLetter c = false := by
  rw [isDigit_eq_inRanges] at h
  rw [isLetter, isAlpha_eq_inRanges]
  split
  · exact inRanges_eq_false_of_disjoint (by decide) h
  · exact inRanges_eq_false_of_disjoint (by decide +kernel) h

theorem isDigit_eq_false_of_isBlank {c : Char} (h : isBlank c = true) : c.isDigit = false := by
  rw [isDigit_eq_inRanges]
  exact inRanges_eq_false_of_disjoint (by decide) h

end Text

theorem isInitial_eq_true_iff {c : Char} : isInitial c = true ↔
    Text.isLetter c = true ∨ c ∈ ['*', '/', '<', '>', '=', '?', '!'] := by
  simp [isInitial, or_assoc]

theorem isSubsequent_eq_true_iff {c : Char} : isSubsequent c = true ↔
    Text.isLetter c = true ∨ c.isDigit = true ∨
      c ∈ ['*', '/', '<', '>', '=', '?', '!', '+', '-'] := by
  simp only [isSubsequent, isInitial, Bool.or_eq_true, decide_eq_true_eq, List.mem_cons,
    List.not_mem_nil, or_false]
  tauto

/-- No blank goes on a symbol. -/
theorem isSubsequent_eq_false_of_isBlank {c : Char} (h : Text.isBlank c = true) :
    isSubsequent c = false := by
  rw [Bool.eq_false_iff, Ne, isSubsequent_eq_true_iff, Text.isLetter_eq_false_of_isBlank h,
    Text.isDigit_eq_false_of_isBlank h]
  rintro (hc | hc | hc)
  · cases hc
  · cases hc
  · simp only [List.mem_cons, List.not_mem_nil, or_false] at hc
    rcases hc with rfl | rfl | rfl | rfl | rfl | rfl | rfl | rfl | rfl <;> cases h

/-- No digit starts a symbol. -/
theorem isInitial_eq_false_of_isDigit {c : Char} (h : c.isDigit = true) : isInitial c = false := by
  rw [Bool.eq_false_iff, Ne, isInitial_eq_true_iff, Text.isLetter_eq_false_of_isDigit h]
  rintro (hc | hc)
  · cases hc
  · simp only [List.mem_cons, List.not_mem_nil, or_false] at hc
    rcases hc with rfl | rfl | rfl | rfl | rfl | rfl | rfl <;> cases h

/-- No delimiter goes on a symbol, so a symbol ends before one. -/
theorem isSubsequent_eq_false_of_isDelimiter {c : Char} (h : isDelimiter (some c) = true) :
    isSubsequent c = false := by
  simp only [isDelimiter, Bool.or_eq_true, decide_eq_true_eq] at h
  rcases h with (((h | rfl) | rfl) | rfl) | rfl
  · exact isSubsequent_eq_false_of_isBlank h
  all_goals decide

theorem isSubsequent_of_isInitial {c : Char} (h : isInitial c = true) : isSubsequent c = true := by
  simp [isSubsequent, h]

theorem isSubsequent_of_isDigit {c : Char} (h : c.isDigit = true) : isSubsequent c = true := by
  simp [isSubsequent, h]

theorem isDigit_eq_false_of_isDelimiter {c : Char} (h : isDelimiter (some c) = true) :
    c.isDigit = false := by
  have hs := isSubsequent_eq_false_of_isDelimiter h
  rw [isSubsequent, Bool.or_eq_false_iff, Bool.or_eq_false_iff, Bool.or_eq_false_iff] at hs
  exact hs.1.1.2

namespace Grammar

/-- The text ends here, or a delimiter comes next. -/
def AtDelimiter (r : List Char) : Prop := isDelimiter r.head? = true

instance (r : List Char) : Decidable (AtDelimiter r) := inferInstanceAs (Decidable (_ = _))

/-- `c` starts neither blanks, a comment, the end of a list nor the tail of one. -/
def OpensDatum (c : Char) : Prop := Text.isBlank c = false ∧ c ∉ [';', ')', '.']

instance (c : Char) : Decidable (OpensDatum c) := inferInstanceAs (Decidable (_ ∧ _))

theorem opensDatum_of_isSubsequent {c : Char} (h : isSubsequent c = true) : OpensDatum c := by
  refine ⟨?_, ?_⟩
  · rw [Bool.eq_false_iff]
    intro hb
    rw [isSubsequent_eq_false_of_isBlank hb] at h
    cases h
  · intro hc
    simp only [List.mem_cons, List.not_mem_nil, or_false] at hc
    rcases hc with rfl | rfl | rfl <;> revert h <;> decide

/-! ### Blanks and comments -/

/-- `Atmosphere cs r`: the text `cs` is blanks and comments followed by `r`. A comment ends
with a newline or with the text. -/
inductive Atmosphere : List Char → List Char → Prop
  | nil {r : List Char} : Atmosphere r r
  | blank {c : Char} {cs r : List Char} (hc : Text.isBlank c = true) (h : Atmosphere cs r) :
      Atmosphere (c :: cs) r
  | comment {w cs r : List Char} (hw : '\n' ∉ w) (h : Atmosphere cs r) :
      Atmosphere (';' :: (w ++ '\n' :: cs)) r
  | lastComment {w : List Char} (hw : '\n' ∉ w) : Atmosphere (';' :: w) []

theorem dropWhile_newline {w : List Char} (hw : '\n' ∉ w) (cs : List Char) :
    (w ++ '\n' :: cs).dropWhile (· ≠ '\n') = '\n' :: cs := by
  rw [List.dropWhile_append_of_pos]
  · rfl
  · intro c hc
    simpa using ne_of_mem_of_not_mem hc hw

theorem dropWhile_newline_eq_nil {w : List Char} (hw : '\n' ∉ w) :
    w.dropWhile (· ≠ '\n') = [] := by
  rw [List.dropWhile_eq_nil_iff]
  intro c hc
  simpa using ne_of_mem_of_not_mem hc hw

/-- A comment takes the rest of its line. -/
theorem Atmosphere.of_line {cs r : List Char}
    (h : Atmosphere (cs.dropWhile (· ≠ '\n')).tail r) : Atmosphere (';' :: cs) r := by
  by_cases hn : '\n' ∈ cs
  · obtain ⟨w, cs', rfl, hw⟩ := List.eq_append_cons_of_mem hn
    rw [dropWhile_newline hw, List.tail_cons] at h
    exact .comment hw h
  · rw [dropWhile_newline_eq_nil hn] at h
    cases h
    exact .lastComment hn

/-! ### Atoms -/

/-- `CharacterName c w`: the character `c` is written `w` after `#\`. -/
inductive CharacterName : Char → List Char → Prop
  | itself (c : Char) : CharacterName c [c]
  | space : CharacterName ' ' ['s', 'p', 'a', 'c', 'e']
  | newline : CharacterName '\n' ['n', 'e', 'w', 'l', 'i', 'n', 'e']

/-- `Numeral k w`: the integer `k` is written `w`. -/
inductive Numeral : Int → List Char → Prop
  | digits {ds : List Char} (hne : ds ≠ []) (hds : ∀ d ∈ ds, d.isDigit = true) :
      Numeral (Text.signedValue false ds) ds
  | negative {ds : List Char} (hne : ds ≠ []) (hds : ∀ d ∈ ds, d.isDigit = true) :
      Numeral (Text.signedValue true ds) ('-' :: ds)

/-- `StringItems body cs r`: the text `cs` is the items of a string literal with the
characters `body`, followed by `r`. -/
inductive StringItems : List Char → List Char → List Char → Prop
  | nil {r : List Char} : StringItems [] r r
  | plain {c : Char} {body cs r : List Char} (hq : c ≠ '"') (hb : c ≠ '\\')
      (h : StringItems body cs r) : StringItems (c :: body) (c :: cs) r
  | newline {body cs r : List Char} (h : StringItems body cs r) :
      StringItems ('\n' :: body) ('\\' :: 'n' :: cs) r
  | escaped {c : Char} {body cs r : List Char} (hc : c ≠ 'n') (h : StringItems body cs r) :
      StringItems (c :: body) ('\\' :: c :: cs) r

/-- `Run p ds cs r`: the longest run of characters with property `p` that `cs` begins with
is `ds`, and `r` follows it. -/
structure Run (p : Char → Bool) (ds cs r : List Char) : Prop where
  eq_append : cs = ds ++ r
  all : ∀ d ∈ ds, p d = true
  maximal : ∀ d ∈ r.head?, p d = false

/-- `Atom v cs r`: the text `cs` begins with a spelling of `v`, which is not a list, and `r`
follows it. -/
inductive Atom : Datum → List Char → List Char → Prop
  /-- `#t` or `#f` -/
  | boolean {b : Bool} {r : List Char} (hr : AtDelimiter r) :
      Atom (.boolean b) ('#' :: (if b then 't' else 'f') :: r) r
  /-- `#\` and the name of a character. -/
  | character {c : Char} {w r : List Char} (hw : CharacterName c w) (hr : AtDelimiter r) :
      Atom (.character c) ('#' :: '\\' :: (w ++ r)) r
  /-- The numeral of a fixnum. -/
  | integer {k : Int} {w r : List Char} (hw : Numeral k w) (hk : Text.IsFixnum k)
      (hr : AtDelimiter r) : Atom (.integer k) (w ++ r) r
  /-- Items between double quotes. -/
  | string {body cs r : List Char} (h : StringItems body cs ('"' :: r)) :
      Atom (.string () (String.ofList body)) ('"' :: cs) r
  /-- An initial character and a longest run of subsequent ones. -/
  | symbol {c : Char} {ds cs r : List Char} (hc : isInitial c = true)
      (h : Run isSubsequent ds cs r) : Atom (.symbol ⟨String.ofList (c :: ds)⟩) (c :: cs) r
  /-- `+` or `-` -/
  | sign {c : Char} {r : List Char} (hc : c = '+' ∨ c = '-') (hr : AtDelimiter r) :
      Atom (.symbol ⟨String.ofList [c]⟩) (c :: r) r

theorem run_iff {p : Char → Bool} {ds cs r : List Char} :
    Run p ds cs r ↔ ds = cs.takeWhile p ∧ r = cs.dropWhile p := by
  constructor
  · rintro ⟨rfl, hds, hr⟩
    rw [List.takeWhile_append_of_pos hds, List.dropWhile_append_of_pos hds]
    cases r with
    | nil => simp
    | cons c r => simp [hr c rfl]
  · rintro ⟨rfl, rfl⟩
    refine ⟨List.takeWhile_append_dropWhile.symm, fun d hd => List.mem_takeWhile_imp hd, ?_⟩
    intro d hd
    have h := List.head?_dropWhile_not p cs
    rw [Option.mem_def.1 hd] at h
    exact h

/-- A run of a kind to which no delimiter belongs ends at a delimiter. -/
theorem Run.of_atDelimiter {p : Char → Bool} {ds r : List Char}
    (hp : ∀ d, isDelimiter (some d) = true → p d = false) (hds : ∀ d ∈ ds, p d = true)
    (hr : AtDelimiter r) : Run p ds (ds ++ r) r := by
  refine ⟨rfl, hds, ?_⟩
  intro d hd
  apply hp
  rw [AtDelimiter, Option.mem_def.1 hd] at hr
  exact hr

/-- At a delimiter such a run is empty. -/
theorem Run.eq_nil {p : Char → Bool} {ds cs r : List Char} (h : Run p ds cs r)
    (hp : ∀ d, isDelimiter (some d) = true → p d = false) (hcs : AtDelimiter cs) :
    ds = [] ∧ r = cs := by
  have h₀ : Run p [] cs cs := Run.of_atDelimiter hp (by simp) hcs
  rw [run_iff] at h h₀
  rw [h.1, h.2, ← h₀.1, ← h₀.2]
  exact ⟨rfl, rfl⟩

/-! ### Data -/

mutual

/-- `Spells n v cs r`: the text `cs` begins with a spelling of the datum `v`, which nests
less than `n` levels deep, and `r` follows it. -/
inductive Spells : Nat → Datum → List Char → List Char → Prop
  | atom {n : Nat} {v : Datum} {cs r : List Char} (h : Atom v cs r) : Spells (n + 1) v cs r
  /-- Elements between parentheses. -/
  | list {n : Nat} {vs : List Datum} {cs cs₁ r : List Char} (h : Elements n vs cs cs₁)
      (ha : Atmosphere cs₁ (')' :: r)) : Spells (n + 1) (.ofList () vs .nil) ('(' :: cs) r
  /-- At least one element, a dot and a tail between parentheses. -/
  | improper {n : Nat} {vs : List Datum} {tail : Datum} {cs cs₁ cs₂ cs₃ cs₄ r : List Char}
      (hne : vs ≠ []) (h : Elements n vs cs cs₁) (ha : Atmosphere cs₁ ('.' :: cs₂))
      (hd : AtDelimiter cs₂) (hb : Atmosphere cs₂ cs₃) (ht : Spells n tail cs₃ cs₄)
      (hc : Atmosphere cs₄ (')' :: r)) : Spells (n + 1) (.ofList () vs tail) ('(' :: cs) r
  /-- A quote mark and a datum. -/
  | quote {n : Nat} {v : Datum} {cs cs₁ r : List Char} (ha : Atmosphere cs cs₁)
      (h : Spells n v cs₁ r) :
      Spells (n + 1) (.ofList () [.symbol .quote, v] .nil) ('\'' :: cs) r

/-- `Elements n vs cs r`: the text `cs` begins with spellings of the data `vs`, each with
blanks and comments before it, and `r` follows them. -/
inductive Elements : Nat → List Datum → List Char → List Char → Prop
  | nil {n : Nat} {r : List Char} : Elements n [] r r
  | cons {n : Nat} {v : Datum} {vs : List Datum} {cs cs₁ cs₂ r : List Char}
      (ha : Atmosphere cs cs₁) (h : Spells n v cs₁ cs₂) (hs : Elements n vs cs₂ r) :
      Elements n (v :: vs) cs r

end

theorem Numeral.exists_opensDatum {k : Int} {w : List Char} (h : Numeral k w) :
    ∃ c w', w = c :: w' ∧ OpensDatum c := by
  cases h with
  | digits hne hds =>
    obtain ⟨d, ds, rfl⟩ := List.exists_cons_of_ne_nil hne
    have hd := hds d (List.mem_cons_self ..)
    exact ⟨d, ds, rfl, opensDatum_of_isSubsequent (isSubsequent_of_isDigit hd)⟩
  | negative => exact ⟨_, _, rfl, by decide⟩

/-- The first character of a spelling tells that a datum starts there. -/
theorem Spells.exists_opensDatum {n : Nat} {v : Datum} {cs r : List Char} (h : Spells n v cs r) :
    ∃ c cs', cs = c :: cs' ∧ OpensDatum c := by
  cases h with
  | atom h =>
    cases h with
    | integer hw =>
      obtain ⟨c, w, rfl, hc⟩ := hw.exists_opensDatum
      exact ⟨c, _, rfl, hc⟩
    | symbol hc => exact ⟨_, _, rfl, opensDatum_of_isSubsequent (isSubsequent_of_isInitial hc)⟩
    | sign hc => exact ⟨_, _, rfl, by rcases hc with rfl | rfl <;> decide⟩
    | _ => exact ⟨_, _, rfl, by decide⟩
  | _ => exact ⟨_, _, rfl, by decide⟩

/-! ### What is left is an end of the text -/

theorem Atmosphere.isSuffix {cs r : List Char} (h : Atmosphere cs r) : r <:+ cs := by
  induction h with
  | nil => exact List.suffix_refl _
  | blank hc h ih => exact ih.trans (List.suffix_cons _ _)
  | @comment w cs r hw h ih =>
    exact ih.trans ⟨';' :: (w ++ ['\n']), by simp⟩
  | lastComment hw => exact List.nil_suffix

theorem StringItems.isSuffix {body cs r : List Char} (h : StringItems body cs r) : r <:+ cs := by
  induction h with
  | nil => exact List.suffix_refl _
  | plain hq hb h ih => exact ih.trans (List.suffix_cons _ _)
  | newline h ih => exact ih.trans ((List.suffix_cons _ _).trans (List.suffix_cons _ _))
  | escaped hc h ih => exact ih.trans ((List.suffix_cons _ _).trans (List.suffix_cons _ _))

theorem Atom.isSuffix {v : Datum} {cs r : List Char} (h : Atom v cs r) : r <:+ cs.tail := by
  cases h with
  | boolean hr => exact List.suffix_cons _ _
  | @character c w r hw hr => exact ⟨'\\' :: w, rfl⟩
  | integer hw hk hr =>
    obtain ⟨c, w, rfl, -⟩ := hw.exists_opensDatum
    exact List.suffix_append _ _
  | string h => exact (List.suffix_cons _ _).trans h.isSuffix
  | symbol hc h =>
    rw [h.eq_append]
    exact List.suffix_append _ _
  | sign hc hr => exact List.suffix_refl _

mutual

/-- A spelling takes at least one character. -/
theorem Spells.isSuffix : ∀ {n : Nat} {v : Datum} {cs r : List Char},
    Spells n v cs r → r <:+ cs.tail
  | _, _, _, _, .atom h => h.isSuffix
  | _, _, _, _, .list h ha => (List.suffix_cons _ _).trans (ha.isSuffix.trans h.isSuffix)
  | _, _, _, _, .improper _ h ha _ hb ht hc => by
    have h₄ := (List.suffix_cons _ _).trans hc.isSuffix
    have h₂ := h₄.trans (ht.isSuffix.trans ((List.tail_suffix _).trans hb.isSuffix))
    have h₁ := h₂.trans ((List.suffix_cons _ _).trans ha.isSuffix)
    exact h₁.trans h.isSuffix
  | _, _, _, _, .quote ha h => h.isSuffix.trans ((List.tail_suffix _).trans ha.isSuffix)

theorem Elements.isSuffix : ∀ {n : Nat} {vs : List Datum} {cs r : List Char},
    Elements n vs cs r → r <:+ cs
  | _, _, _, _, .nil => List.suffix_refl _
  | _, _, _, _, .cons ha h hs =>
    hs.isSuffix.trans (h.isSuffix.trans ((List.tail_suffix _).trans ha.isSuffix))

end

/-! ### Lists from some element on -/

/-- `ListEnd n vs tail cs r`: the text `cs` begins with the end of a list that has the
elements `vs` and ends in `tail`, and `r` follows it. -/
inductive ListEnd (n : Nat) (vs : List Datum) : Datum → List Char → List Char → Prop
  | close {cs r : List Char} (ha : Atmosphere cs (')' :: r)) : ListEnd n vs .nil cs r
  | dot {tail : Datum} {cs cs₁ cs₂ cs₃ r : List Char} (hne : vs ≠ [])
      (ha : Atmosphere cs ('.' :: cs₁)) (hd : AtDelimiter cs₁) (hb : Atmosphere cs₁ cs₂)
      (ht : Spells n tail cs₂ cs₃) (hc : Atmosphere cs₃ (')' :: r)) : ListEnd n vs tail cs r

/-- `ListRest n vs v cs r`: the text `cs` begins with what is left of the list `v` after its
elements `vs`, and `r` follows it. -/
def ListRest (n : Nat) (vs : List Datum) (v : Datum) (cs r : List Char) : Prop :=
  ∃ vs' tail cs₁, Elements n vs' cs cs₁ ∧ ListEnd n (vs ++ vs') tail cs₁ r ∧
    v = .ofList () (vs ++ vs') tail

theorem ListEnd.length_le {n : Nat} {vs : List Datum} {tail : Datum} {cs r : List Char}
    (h : ListEnd n vs tail cs r) : r.length ≤ cs.length := by
  cases h with
  | close ha => exact Nat.le_of_succ_le ha.isSuffix.length_le
  | dot hne ha hd hb ht hc =>
    have h₁ := ha.isSuffix.length_le
    have h₂ := hb.isSuffix.length_le
    have h₃ := (ht.isSuffix.trans (List.tail_suffix _)).length_le
    have h₄ := hc.isSuffix.length_le
    simp only [List.length_cons] at h₁ h₄
    omega

theorem ListRest.length_le {n : Nat} {vs : List Datum} {v : Datum} {cs r : List Char}
    (h : ListRest n vs v cs r) : r.length ≤ cs.length := by
  obtain ⟨vs', tail, cs₁, hs, he, -⟩ := h
  exact Nat.le_trans he.length_le hs.isSuffix.length_le

/-- One more element read belongs to the elements that were read before. -/
theorem ListRest.cons {n : Nat} {vs : List Datum} {v a : Datum} {cs cs₁ cs₂ r : List Char}
    (ha : Atmosphere cs cs₁) (h : Spells n a cs₁ cs₂) (hs : ListRest n (vs ++ [a]) v cs₂ r) :
    ListRest n vs v cs r := by
  obtain ⟨vs', tail, cs₃, hvs, he, rfl⟩ := hs
  rw [List.append_assoc, List.singleton_append] at he ⊢
  exact ⟨a :: vs', tail, cs₃, .cons ha h hvs, he, rfl⟩

theorem ListRest.spells {n : Nat} {v : Datum} {cs r : List Char} (h : ListRest n [] v cs r) :
    Spells (n + 1) v ('(' :: cs) r := by
  obtain ⟨vs, tail, cs₁, hs, he, rfl⟩ := h
  cases he with
  | close ha => exact .list hs ha
  | dot hne ha hd hb ht hc => exact .improper hne hs ha hd hb ht hc

end Grammar

end SmallScheme
