import SmallScheme.Interpreter
import SmallScheme.Proofs.Object.Writer
import SmallScheme.Proofs.Reader.Acceptance

/-!
# Reading undoes writing

The external form of an object is a spelling of its content, wherever a delimiter or the end
of the text follows it, if every symbol in it can be spelt (`IsReadable.spells_form`); and
whatever the grammar spells is such an object (`Spells.isReadable`). So an object that was
written is read back exactly when its symbols can be spelt, and what was read can be
written and read again.
-/

namespace SmallScheme

open CharStream Grammar Reader Sequencing

/-- The name of a symbol is a spelling of it: it is a sign, or an initial character followed
by subsequent ones. -/
def Symbol.IsReadable (s : Symbol) : Prop :=
  s.name = "+" ∨ s.name = "-" ∨
    ∃ c ds, s.name.toList = c :: ds ∧ isInitial c = true ∧ ∀ d ∈ ds, isSubsequent d = true

namespace Object

variable {ι : Type}

/-- An object that a text can stand for in which data nest less than `n` levels deep. -/
structure IsReadable (n : Nat) (v : Object ι) : Prop where
  plain : v.IsPlain
  symbols : ∀ s ∈ v.symbols, s.IsReadable
  levels : v.levels ≤ n

/-! ### The external form is a spelling -/

theorem numeral_numeral (k : Int) : Numeral k (Text.numeral k).toList := by
  have hds : ∀ m, ∀ d ∈ Nat.toDigits 10 m, d.isDigit = true :=
    fun m d hd => Nat.isDigit_of_mem_toDigits (by decide) (by decide) hd
  cases k with
  | ofNat m =>
    have h := Numeral.digits Nat.toDigits_ne_nil (hds m)
    rw [Text.signedValue, Text.digitsValue_toDigits] at h
    rw [show Text.numeral (.ofNat m) = m.repr from rfl, Nat.toList_repr]
    exact h
  | negSucc m =>
    have h := Numeral.negative Nat.toDigits_ne_nil (hds (m + 1))
    rw [Text.signedValue, Text.digitsValue_toDigits] at h
    rw [show Text.numeral (.negSucc m) = "-" ++ (m + 1).repr from rfl, String.toList_append,
      Nat.toList_repr]
    exact h

theorem stringItems_stringItem {body cs r : List Char} (c : Char) (h : StringItems body cs r) :
    StringItems (c :: body) (stringItem c ++ cs) r := by
  rw [stringItem]
  split
  · next hc =>
    subst hc
    exact .newline h
  split
  · next hc =>
    subst hc
    exact .escaped (by decide) h
  split
  · next hc =>
    subst hc
    exact .escaped (by decide) h
  · next hn hb hq => exact .plain hq hb h

theorem stringItems_flatMap (body r : List Char) :
    StringItems body (body.flatMap stringItem ++ r) r := by
  induction body with
  | nil => exact .nil
  | cons c body ih =>
    rw [List.flatMap_cons, List.append_assoc]
    exact stringItems_stringItem c ih

theorem atomForm_string (m : ι) (text : String) : (string m text).atomForm =
    '"' :: (text.toList.flatMap stringItem ++ ['"']) := String.toList_ofList ..

theorem characterName_characterLiteral (c : Char) :
    ∃ w, (characterLiteral c).toList = '#' :: '\\' :: w ∧ CharacterName c w := by
  rw [characterLiteral]
  split
  · next hc =>
    subst hc
    exact ⟨_, rfl, .newline⟩
  split
  · next hc =>
    subst hc
    exact ⟨_, rfl, .space⟩
  · exact ⟨_, String.toList_ofList .., .itself c⟩

theorem atom_of_isReadable {s : Symbol} (h : s.IsReadable) {r : List Char} (hr : AtDelimiter r) :
    Atom (.symbol s) (s.name.toList ++ r) r := by
  obtain ⟨name⟩ := s
  rcases h with rfl | rfl | ⟨c, ds, hname, hc, hds⟩
  · exact .sign (.inl rfl) hr
  · exact .sign (.inr rfl) hr
  · obtain rfl : String.ofList (c :: ds) = name := by rw [← hname, String.ofList_toList]
    rw [String.toList_ofList]
    exact .symbol hc (.of_atDelimiter (fun _ => isSubsequent_eq_false_of_isDelimiter) hds hr)

theorem spells_atomForm {v : Object ι} (hp : ∀ m a d, v ≠ pair m a d) (hv : v.IsPlain)
    (hs : ∀ s ∈ v.symbols, s.IsReadable) (n : Nat) {r : List Char} (hr : AtDelimiter r) :
    Spells (n + 1) v.erase (v.atomForm ++ r) r := by
  cases v with
  | boolean b => cases b <;> exact .atom (.boolean hr)
  | integer k => exact .atom (.integer (numeral_numeral k) hv hr)
  | character c =>
    obtain ⟨w, hw, hc⟩ := characterName_characterLiteral c
    have h : (character c : Object ι).atomForm = '#' :: '\\' :: w := hw
    rw [h]
    exact .atom (.character hc hr)
  | string m text =>
    have ha := Atom.string (stringItems_flatMap text.toList ('"' :: r))
    rw [String.ofList_toList] at ha
    rw [atomForm_string, List.cons_append, List.append_assoc]
    exact .atom ha
  | nil => exact .list .nil .nil
  | symbol s => exact .atom (atom_of_isReadable (hs s (by simp [symbols])) hr)
  | pair m a d => exact absurd rfl (hp m a d)
  | primitive | closure | absent => exact hv.elim

/-! ### Lists of external forms

The external form of a list is a spelling if those of its atoms are. This holds as well if the
same change has been made to the characters of the text and to those in the object, and leaves
alone what the text of a list has besides its atoms. -/

/-- The object with its characters, and those of its strings, changed by `g`. -/
def mapCharacters (g : Char → Char) : Object ι → Object ι
  | character c => character (g c)
  | string m text => string m (text.map g)
  | pair m first rest => pair m (first.mapCharacters g) (rest.mapCharacters g)
  | o => o

@[simp]
theorem mapCharacters_id (v : Object ι) : v.mapCharacters id = v := by
  induction v with
  | pair m first rest ih₁ ih₂ => rw [mapCharacters, ih₁, ih₂]
  | string m text => simp [mapCharacters]
  | _ => rfl

/-- After a change of its characters the text of every atom spells the atom changed alike. -/
def SpellsAtoms (ι : Type) (g : Char → Char) : Prop :=
  ∀ {v : Object ι}, (∀ m a d, v ≠ pair m a d) → v.IsPlain → (∀ s ∈ v.symbols, s.IsReadable) →
    ∀ (n : Nat) {r : List Char}, AtDelimiter r →
      Spells (n + 1) (v.erase.mapCharacters g) (v.atomForm.map g ++ r) r

section Change

variable {g : Char → Char} (hopen : g '(' = '(') (hclose : g ')' = ')') (hblank : g ' ' = ' ')
  (hdot : g '.' = '.')

include hclose hblank

/-- What is written of the rest of a list starts with a delimiter. -/
theorem atDelimiter_restForm (v : Object ι) (r : List Char) :
    AtDelimiter (v.restForm.map g ++ r) := by
  cases v <;> simp [restForm, hclose, hblank, AtDelimiter, isDelimiter] <;> decide

include hopen hdot

theorem spells_map_form (hatom : SpellsAtoms ι g) {v : Object ι} (hv : v.IsPlain)
    (hs : ∀ s ∈ v.symbols, s.IsReadable) :
    (∀ {n : Nat} {r : List Char}, v.levels ≤ n → AtDelimiter r →
      Spells n (v.erase.mapCharacters g) (v.form.map g ++ r) r) ∧
    ∀ {n : Nat} {vs : List Datum} {r : List Char}, v.restLevels ≤ n → vs ≠ [] →
      ListRest n vs (.ofList () vs (v.erase.mapCharacters g)) (v.restForm.map g ++ r) r := by
  induction v with
  | pair m first rest ih₁ ih₂ =>
    obtain ⟨hfirst, -⟩ := ih₁ hv.1 fun s hm => hs s (List.mem_append_left _ hm)
    obtain ⟨-, hrest⟩ := ih₂ hv.2 fun s hm => hs s (List.mem_append_right _ hm)
    have hdelimiter (r : List Char) := atDelimiter_restForm hclose hblank rest r
    constructor
    · intro n r hn hr
      cases n with
      | zero => exact absurd hn (Nat.not_succ_le_zero _)
      | succ n =>
        obtain ⟨h₁, h₂⟩ := Nat.max_le.1 (Nat.le_of_succ_le_succ hn)
        rw [form, List.map_cons, List.map_append, hopen, List.cons_append, List.append_assoc]
        have h := hfirst h₁ (hdelimiter r)
        have hr : ListRest n ([] ++ [first.erase.mapCharacters g]) _ _ r := hrest h₂ (by simp)
        exact (ListRest.cons .nil h hr).spells
    · intro n vs r hn hne
      obtain ⟨h₁, h₂⟩ := Nat.max_le.1 hn
      rw [restForm, List.map_cons, List.map_append, hblank, List.cons_append, List.append_assoc]
      have hof : ofList () vs (pair () (first.erase.mapCharacters g) (rest.erase.mapCharacters g)) =
          ofList () (vs ++ [first.erase.mapCharacters g]) (rest.erase.mapCharacters g) := by
        simp [ofList]
      rw [erase, mapCharacters, hof]
      exact .cons (.blank rfl .nil) (hfirst h₁ (hdelimiter r)) (hrest h₂ (by simp))
  | primitive | closure | absent => exact hv.elim
  | nil =>
    constructor
    · intro n r hn hr
      cases n with
      | zero => exact absurd hn (Nat.not_succ_le_zero _)
      | succ n => exact hatom (by simp) hv hs n hr
    · intro n vs r hn hne
      rw [restForm, List.map_singleton, hclose]
      exact ⟨[], .nil, _, .nil, .close .nil, by rw [List.append_nil]; rfl⟩
  | _ =>
    constructor
    · intro n r hn hr
      cases n with
      | zero => exact absurd hn (Nat.not_succ_le_zero _)
      | succ n =>
        simp only [form]
        exact hatom (by simp) hv hs n hr
    · intro n vs r hn hne
      cases n with
      | zero => exact absurd hn (Nat.not_succ_le_zero _)
      | succ n =>
        have h := hatom (by simp) hv hs n (r := ')' :: r) rfl
        simp only [restForm, List.map_cons, List.map_append, List.map_nil, hblank, hdot, hclose,
          List.cons_append, List.append_assoc, List.nil_append]
        refine ⟨[], _, _, .nil, .dot ?_ (.blank rfl .nil) rfl (.blank rfl .nil) h .nil, ?_⟩
        · simpa using hne
        · rw [List.append_nil]

end Change

/-- **The external form is a spelling.** -/
theorem spells_form {v : Object ι} (hv : v.IsPlain) (hs : ∀ s ∈ v.symbols, s.IsReadable)
    {n : Nat} {r : List Char} (hn : v.levels ≤ n) (hr : AtDelimiter r) :
    Spells n v.erase (v.form ++ r) r := by
  have hatom : SpellsAtoms ι id := by
    intro v hp hv hs n r hr
    rw [mapCharacters_id, List.map_id]
    exact spells_atomForm hp hv hs n hr
  have h := (spells_map_form rfl rfl rfl rfl hatom hv hs).1 hn hr
  rwa [mapCharacters_id, List.map_id] at h

/-! ### What is spelt can be written -/

theorem IsReadable.ofList {n : Nat} {m : ι} {vs : List (Object ι)} {tail : Object ι}
    (hvs : ∀ v ∈ vs, v.IsReadable n) (hp : tail.IsPlain)
    (hs : ∀ s ∈ tail.symbols, s.IsReadable) (hn : tail.restLevels ≤ n) :
    (ofList m vs tail).IsReadable (n + 1) := by
  refine ⟨isPlain_ofList (fun v hv => (hvs v hv).plain) hp, ?_, ?_⟩
  · intro s hmem
    rw [symbols_ofList] at hmem
    rcases List.mem_append.1 hmem with h | h
    · obtain ⟨v, hv, hsv⟩ := List.mem_flatMap.1 h
      exact (hvs v hv).symbols s hsv
    · exact hs s h
  · refine Nat.le_trans (levels_le_restLevels_succ _) (Nat.succ_le_succ ?_)
    exact restLevels_ofList_le (fun v hv => (hvs v hv).levels) hn

end Object

open Object

theorem Grammar.Atom.isReadable {v : Datum} {cs r : List Char} (h : Atom v cs r) (n : Nat) :
    v.IsReadable (n + 1) := by
  cases h with
  | integer hw hk hr => exact ⟨hk, by simp [symbols], Nat.le_add_left ..⟩
  | @symbol c ds cs r hc h =>
    refine ⟨trivial, ?_, Nat.le_add_left ..⟩
    intro s hs
    obtain rfl := List.mem_singleton.1 hs
    exact .inr (.inr ⟨c, ds, String.toList_ofList .., hc, h.all⟩)
  | sign hc hr =>
    refine ⟨trivial, ?_, Nat.le_add_left ..⟩
    intro s hs
    obtain rfl := List.mem_singleton.1 hs
    rcases hc with rfl | rfl
    · exact .inl rfl
    · exact .inr (.inl rfl)
  | _ => exact ⟨trivial, by simp [symbols], Nat.le_add_left ..⟩

theorem Symbol.isReadable_quote : Symbol.quote.IsReadable :=
  .inr (.inr ⟨'q', ['u', 'o', 't', 'e'], rfl, by decide, by simp; decide⟩)

mutual

/-- **What is spelt can be written**: no more levels are needed to write it than to read it. -/
theorem Grammar.Spells.isReadable : ∀ {n : Nat} {v : Datum} {cs r : List Char},
    Spells n v cs r → v.IsReadable n
  | _, _, _, _, .atom h => h.isReadable _
  | _, _, _, _, .list h _ => .ofList h.isReadable trivial (by simp [symbols]) (Nat.zero_le _)
  | _, _, _, _, .improper _ h _ _ _ ht _ => by
    have hr := ht.isReadable
    exact .ofList h.isReadable hr.plain hr.symbols
      (Nat.le_trans (restLevels_le_levels _) hr.levels)
  | _, _, _, _, .quote _ h => by
    have hr := h.isReadable
    have hn := Nat.le_trans (levels_pos _) hr.levels
    have hq : (symbol .quote : Datum).IsReadable _ :=
      ⟨trivial, List.forall_mem_singleton.2 Symbol.isReadable_quote, hn⟩
    have hvs := List.forall_mem_cons.2 ⟨hq, List.forall_mem_singleton.2 hr⟩
    exact .ofList hvs trivial (by simp [symbols]) (Nat.zero_le _)

theorem Grammar.Elements.isReadable : ∀ {n : Nat} {vs : List Datum} {cs r : List Char},
    Elements n vs cs r → ∀ v ∈ vs, v.IsReadable n
  | _, _, _, _, .nil => by simp
  | _, _, _, _, .cons _ h hs => List.forall_mem_cons.2 ⟨h.isReadable, hs.isReadable⟩

end

/-! ### Reading what was written -/

namespace Object

variable {ι : Type}

theorem symbols_erase (v : Object ι) : v.erase.symbols = v.symbols := by
  induction v with
  | pair m first rest ih₁ ih₂ => rw [erase, symbols, symbols, ih₁, ih₂]
  | _ => rfl

theorem erase_eq_self (d : Datum) : d.erase = d := by
  induction d with
  | pair m first rest ih₁ ih₂ => rw [erase, ih₁, ih₂]
  | closure m parameters body frame ih₁ ih₂ => rw [erase, ih₁, ih₂]
  | _ => rfl

/-- An external form is read up to its end. -/
theorem IsReadable.read_form {n : Nat} {v : Object ι} (hv : v.IsReadable n) {r : String}
    (hr : AtDelimiter r.toList) :
    ∃ t, Reader.read n (.ofString (String.ofList v.form ++ r)) = .ok (some v.erase) t ∧
      t.position = (String.ofList v.form).length := by
  have hs := delivers_ofString (String.ofList v.form ++ r)
  rw [String.toList_append, String.toList_ofList] at hs
  have hv := spells_form hv.plain hv.symbols hv.levels hr
  obtain ⟨t, hread, ht⟩ := read_of_spells ⟨hs, rfl⟩ .nil hv
  refine ⟨t, hread, ?_⟩
  have hq := ht.position_add
  simp only [List.length_append, CharStream.ofString, String.length_ofList] at hq ⊢
  omega

end Object

/-- What a text stands for can be written. -/
theorem Reader.isReadable_of_read {n : Nat} {s t : CharStream} {cs : List Char} {d : Datum}
    (hs : s.Delivers cs) (h : read n s = .ok (some d) t) : d.IsReadable n := by
  obtain ⟨_, _, -, hd, -⟩ := exists_spells_of_read ⟨hs, rfl⟩ h
  exact hd.isReadable

/-! ### Evaluating what was written -/

/-- A quotation evaluates to its datum and changes no frame. -/
theorem evalForm_quote {limits : Limits} (h : 0 < limits.rounds) (d : Datum) (f : FrameId)
    (s : Store) : ∃ u m, evalForm limits (.ofList () [.symbol .quote, d] .nil) f s =
      .ok u { s with fresh := m } ∧ u.erase = d := by
  obtain ⟨nesting, rounds⟩ := limits
  obtain ⟨k, rfl⟩ : ∃ k, rounds = k + 1 := ⟨rounds - 1, by simp only at h; omega⟩
  refine ⟨(d.place (s.fresh + 2)).1, (d.place (s.fresh + 2)).2, ?_, Datum.erase_place _ _⟩
  rfl

/-- At the end of a text the value of its last form stands. -/
theorem runStream_of_delivers_nil {t : CharStream} (ht : t.Delivers []) (limits : Limits)
    (f : FrameId) (count : Nat) (last : Value) (s : Store) :
    runStream limits f true count t last s = (⟨[], .ok last⟩, s) := by
  cases count with
  | zero => rfl
  | succ count =>
    have hnone : ∃ u, read limits.nesting t = .ok none u := (read_eq_none_iff ⟨ht, rfl⟩).2 .nil
    obtain ⟨u, hu⟩ := hnone
    rw [runStream, readForm, hu]
    rfl

/-- A stream with one form left is run by evaluating the form. -/
theorem runStream_of_read {limits : Limits} {f : FrameId} {d : Datum} {s t : CharStream} {v : Value}
    {store store' : Store} (hread : read limits.nesting s = .ok (some d) t) (ht : t.Delivers [])
    (hv : evalForm limits d f store = .ok v store') (count : Nat) (last : Value) :
    runStream limits f true (count + 1) s last store = (⟨[d], .ok v⟩, store') := by
  simp only [runStream, readForm, hread, Bool.true_or, if_true, Option.map_some, hv,
    runStream_of_delivers_nil ht, Run.begin]

/-- A text that is one quotation evaluates to its datum. -/
theorem evalText_of_read_quote {limits : Limits} (h : 0 < limits.rounds) {text : String}
    {d : Datum} {t : CharStream} (f : FrameId) (s : Store)
    (hread : read limits.nesting (.ofString text) =
      .ok (some (.ofList () [.symbol .quote, d] .nil)) t) (ht : t.Delivers []) :
    ∃ u m, evalText limits text f s = .ok u { s with fresh := m } ∧ u.erase = d := by
  obtain ⟨u, m, hu, hd⟩ := evalForm_quote h d f s
  refine ⟨u, m, ?_, hd⟩
  simp only [evalText, runText, runStream_of_read hread ht hu]

/-- The text of a quotation of an external form is read as that quotation. -/
theorem Object.IsReadable.read_quote {ι : Type} {n : Nat} {v : Object ι} (hv : v.IsReadable n) :
    ∃ t, read (n + 1) (.ofString ("'" ++ String.ofList v.form)) =
      .ok (some (.ofList () [.symbol .quote, v.erase] .nil)) t ∧ t.Delivers [] := by
  have hs := delivers_ofString ("'" ++ String.ofList v.form)
  rw [show ("'" ++ String.ofList v.form).toList = '\'' :: v.form by simp] at hs
  have hform := spells_form hv.plain hv.symbols hv.levels (r := []) rfl
  rw [List.append_nil] at hform
  obtain ⟨t, hread, ht⟩ := read_of_spells ⟨hs, rfl⟩ .nil (.quote .nil hform)
  exact ⟨t, hread, ht.delivers⟩

/-- **Reading undoes writing.** A plain object has one text, which the writer gives whenever
it may nest deep enough. Before a delimiter or the end of a text the reader takes exactly
this text for the content of the object if the symbols in it can be spelt, and not
otherwise; quoted, the text then evaluates to that content in every environment. And
whatever the reader makes of any text is plain and has symbols that can be spelt, so it can
be written and read again. -/
theorem read_write {ι : Type} :
    (∀ v : Object ι, v.IsPlain → ∃ text : String,
      (∀ n, v.levels ≤ n → v.write n = .ok text) ∧
      (∀ (n : Nat) (r : String), v.levels ≤ n → AtDelimiter r.toList →
        ((∃ t, read n (.ofString (text ++ r)) = .ok (some v.erase) t ∧
          t.position = text.length) ↔ ∀ s ∈ v.symbols, s.IsReadable)) ∧
      ((∀ s ∈ v.symbols, s.IsReadable) → ∀ (limits : Limits) (f : FrameId) (s : Store),
        v.levels < limits.nesting → 0 < limits.rounds →
          ∃ u t, evalText limits ("'" ++ text) f s = .ok u t ∧ u.erase = v.erase ∧
            t.frames = s.frames)) ∧
    ∀ (n : Nat) (s t : CharStream) (cs : List Char) (d : Datum), s.Delivers cs →
      read n s = .ok (some d) t →
        d.IsPlain ∧ d.levels ≤ n ∧ (∀ s ∈ d.symbols, s.IsReadable) ∧
          ∃ text u, d.write n = .ok text ∧ read n (.ofString text) = .ok (some d) u := by
  constructor
  · intro v hv
    refine ⟨String.ofList v.form, fun n hn => write_eq hv hn, ?_, ?_⟩
    · intro n r hn hr
      constructor
      · rintro ⟨t, hread, -⟩
        -- whatever is read can be spelt, also if it comes from this text
        have h := (isReadable_of_read (delivers_ofString _) hread).symbols
        rwa [symbols_erase] at h
      · intro hs
        exact IsReadable.read_form ⟨hv, hs, hn⟩ hr
    · intro hs limits f s hn hr
      have hread := IsReadable.read_quote ⟨hv, hs, Nat.le_sub_one_of_lt hn⟩
      rw [Nat.sub_add_cancel (Nat.one_le_of_lt hn)] at hread
      obtain ⟨t, hread, ht⟩ := hread
      obtain ⟨u, m, hu, hd⟩ := evalText_of_read_quote hr f s hread ht
      exact ⟨u, _, hu, hd, rfl⟩
  · intro n s t cs d hs hread
    have hd := isReadable_of_read hs hread
    have htext := write_eq hd.plain hd.levels
    obtain ⟨u, hu, -⟩ := hd.read_form (r := "") rfl
    rw [String.append_empty, erase_eq_self] at hu
    exact ⟨hd.plain, hd.levels, hd.symbols, _, u, htext, hu⟩

/-- The improper list `(+ "\n" . -5)` is written, and read back before a parenthesis. -/
theorem read_write_improper :
    let v : Datum := .pair () (.symbol ⟨"+"⟩) (.pair () (.string () "\n") (.integer (-5)))
    v.IsPlain ∧ ∃ text, v.write 2 = .ok text ∧
      ∃ t, read 2 (.ofString (text ++ ")")) = .ok (some v) t ∧ t.position = text.length := by
  intro v
  have hv : v.IsPlain := ⟨trivial, trivial, (by decide : Text.IsFixnum (-5))⟩
  obtain ⟨text, hwrite, hread, -⟩ := read_write.1 v hv
  have hs : ∀ s ∈ v.symbols, s.IsReadable := List.forall_mem_singleton.2 (.inl rfl)
  exact ⟨hv, text, hwrite 2 (by decide), (hread 2 ")" (by decide) (by decide)).2 hs⟩

end SmallScheme
