import SmallScheme.Session
import SmallScheme.Proofs.RoundTrip
import SmallScheme.Proofs.Session.Joining

/-!
# Loading what was written

An object that is written, quoted in the text of a definition and evaluated is bound as it was.
If the text stands in a file that is loaded, its lines are ended by line feeds first. The writer
writes a newline by an escape or by name, but a carriage return as it is. So every carriage return
in the characters and strings of the object is bound as a line feed, and nothing else is
changed.
-/

namespace SmallScheme

open CharStream Grammar Reader Sequencing Object Text

variable {ι : Type}

/-! ### Line feeds -/

/-- The character that a character of a file is read as, if it does not stand before a line
feed. -/
def Text.lineFeed (c : Char) : Char := if c = '\r' then '\n' else c

theorem lineFeed_eq_self_iff {c : Char} : lineFeed c = c ↔ '\r' ≠ c := by
  rw [lineFeed]
  split
  · next hc => simp [hc]
  · next hc => simpa using Ne.symm hc

theorem map_lineFeed_eq_self_iff {cs : List Char} : cs.map lineFeed = cs ↔ '\r' ∉ cs := by
  induction cs with
  | nil => simp
  | cons c cs ih => simp [ih, lineFeed_eq_self_iff]

/-- In a text without line feeds every carriage return stands alone. -/
theorem lineFeeds_eq_map {cs : List Char} (h : '\n' ∉ cs) : lineFeeds cs = cs.map lineFeed := by
  fun_induction lineFeeds cs with
  | case1 => rfl
  | case2 cs ih => simp at h
  | case3 cs hne ih =>
    rw [ih fun hm => h (List.mem_cons_of_mem _ hm)]
    rfl
  | case4 c cs h₁ h₂ ih =>
    rw [ih fun hm => h (List.mem_cons_of_mem _ hm), List.map_cons,
      lineFeed_eq_self_iff.2 fun hc => h₂ hc.symm]

namespace Object

/-- The characters of an object, and those of its strings. -/
def characters : Object ι → List Char
  | character c => [c]
  | string _ text => text.toList
  | pair _ first rest => first.characters ++ rest.characters
  | _ => []

/-- Reading line feeds for carriage returns leaves an object alone just if it has none. -/
theorem mapCharacters_lineFeed_iff (v : Object ι) :
    v.erase.mapCharacters lineFeed = v.erase ↔ '\r' ∉ v.characters := by
  induction v with
  | pair m first rest ih₁ ih₂ => simp [erase, mapCharacters, characters, ih₁, ih₂]
  | character c => simp [erase, mapCharacters, characters, lineFeed_eq_self_iff]
  | string m text =>
    simp only [erase, mapCharacters, characters, string.injEq, true_and,
      ← map_lineFeed_eq_self_iff, ← String.toList_inj, String.toList_map]
  | _ => simp [erase, mapCharacters, characters]

/-! ### Blanks in external forms

A blank in the text of an atom is a character of the atom that stands for itself. A newline never
does. -/

theorem isBlank_of_numeral {k : Int} {w : List Char} (h : Numeral k w) :
    ∀ c ∈ w, isBlank c = false := by
  have hdigits {ds : List Char} (hds : ∀ d ∈ ds, d.isDigit = true) :
      ∀ c ∈ ds, isBlank c = false := fun c hc => by
    rw [Bool.eq_false_iff]
    intro hb
    exact absurd (hds c hc) (by simp [isDigit_eq_false_of_isBlank hb])
  cases h with
  | digits _ hds => exact hdigits hds
  | negative _ hds => exact List.forall_mem_cons.2 ⟨rfl, hdigits hds⟩

theorem isBlank_of_isReadable {s : Symbol} (h : s.IsReadable) :
    ∀ c ∈ s.name.toList, isBlank c = false := by
  have hsubsequent {c : Char} (hc : isSubsequent c = true) : isBlank c = false :=
    (opensDatum_of_isSubsequent hc).1
  rcases h with hname | hname | ⟨c, ds, hname, hc, hds⟩
  · rw [hname]
    exact List.forall_mem_singleton.2 rfl
  · rw [hname]
    exact List.forall_mem_singleton.2 rfl
  · rw [hname]
    exact List.forall_mem_cons.2
      ⟨hsubsequent (isSubsequent_of_isInitial hc), fun d hd => hsubsequent (hds d hd)⟩

section Blanks

variable {a c : Char} (ha : isBlank a = true)

include ha

theorem notMem_of_all_not_blank {cs : List Char} (h : cs.all (!isBlank ·) = true) : a ∉ cs := by
  intro hm
  have hblank := List.all_eq_true.1 h a hm
  simp [ha] at hblank

theorem eq_of_mem_stringItem (h : a ∈ stringItem c) : a = c ∧ c ≠ '\n' := by
  rw [stringItem] at h
  split at h
  · exact absurd h (notMem_of_all_not_blank ha rfl)
  split at h
  · exact absurd h (notMem_of_all_not_blank ha rfl)
  split at h
  · exact absurd h (notMem_of_all_not_blank ha rfl)
  · next hn _ _ => exact ⟨List.mem_singleton.1 h, hn⟩

theorem eq_of_mem_characterLiteral (h : a ∈ (characterLiteral c).toList) : a = c ∧ c ≠ '\n' := by
  rw [characterLiteral] at h
  split at h
  · exact absurd h (notMem_of_all_not_blank ha rfl)
  split at h
  · exact absurd h (notMem_of_all_not_blank ha rfl)
  · next hn _ =>
    rw [String.toList_ofList] at h
    rcases List.mem_cons.1 h with rfl | h
    · cases ha
    rcases List.mem_cons.1 h with rfl | h
    · cases ha
    · exact ⟨List.mem_singleton.1 h, hn⟩

theorem mem_characters_of_mem_atomForm {v : Object ι} (hv : v.IsPlain)
    (hs : ∀ s ∈ v.symbols, s.IsReadable) (h : a ∈ v.atomForm) :
    a ∈ v.characters ∧ a ≠ '\n' := by
  have hnone (h' : ∀ c ∈ v.atomForm, isBlank c = false) : a ∈ v.characters ∧ a ≠ '\n' := by
    rw [h' a h] at ha
    cases ha
  cases v with
  | boolean b =>
    have hall : (boolean b : Object ι).atomForm.all (!isBlank ·) = true := by cases b <;> rfl
    exact absurd h (notMem_of_all_not_blank ha hall)
  | integer k => exact hnone (isBlank_of_numeral (numeral_numeral k))
  | character c =>
    obtain ⟨rfl, hn⟩ := eq_of_mem_characterLiteral ha h
    exact ⟨List.mem_singleton_self _, hn⟩
  | string m text =>
    rw [atomForm_string] at h
    rcases List.mem_cons.1 h with rfl | h
    · cases ha
    rcases List.mem_append.1 h with h | h
    · obtain ⟨c, hc, hitem⟩ := List.mem_flatMap.1 h
      obtain ⟨rfl, hn⟩ := eq_of_mem_stringItem ha hitem
      exact ⟨hc, hn⟩
    · exact absurd h (notMem_of_all_not_blank ha rfl)
  | nil => exact absurd h (notMem_of_all_not_blank ha rfl)
  | symbol s => exact hnone (isBlank_of_isReadable (hs s (by simp [symbols])))
  | pair m first rest => cases h
  | primitive | closure | absent => exact hv.elim

end Blanks

/-- No external form has a line feed in it. -/
theorem newline_notMem_form {v : Object ι} (hv : v.IsPlain)
    (hs : ∀ s ∈ v.symbols, s.IsReadable) : '\n' ∉ v.form ∧ '\n' ∉ v.restForm := by
  induction v with
  | pair m first rest ih₁ ih₂ =>
    obtain ⟨hfirst, -⟩ := ih₁ hv.1 fun s hm => hs s (List.mem_append_left _ hm)
    obtain ⟨-, hrest⟩ := ih₂ hv.2 fun s hm => hs s (List.mem_append_right _ hm)
    simp [form, restForm, hfirst, hrest]
  | _ =>
    have hatom : '\n' ∉ atomForm _ := fun h => (mem_characters_of_mem_atomForm rfl hv hs h).2 rfl
    simp [form, restForm, hatom]

/-! ### The text of a file is a spelling -/

theorem stringItems_map_lineFeed (body r : List Char) :
    StringItems (body.map lineFeed) ((body.flatMap stringItem).map lineFeed ++ r) r := by
  induction body with
  | nil => exact .nil
  | cons c body ih =>
    rw [List.flatMap_cons, List.map_append, List.append_assoc, List.map_cons]
    by_cases hc : '\r' = c
    · subst hc
      exact .plain (by decide) (by decide) ih
    · have hitem : '\r' ∉ stringItem c := fun h => hc (eq_of_mem_stringItem rfl h).1
      rw [map_lineFeed_eq_self_iff.2 hitem, lineFeed_eq_self_iff.2 hc]
      exact stringItems_stringItem c ih

theorem spellsAtoms_lineFeed : SpellsAtoms ι lineFeed := by
  intro v hp hv hs n r hr
  by_cases hreturn : '\r' ∈ v.characters
  · cases v with
    | character c =>
      obtain rfl := List.mem_singleton.1 hreturn
      exact .atom (.character (.itself '\n') hr)
    | string m text =>
      have h := Atom.string (stringItems_map_lineFeed text.toList ('"' :: r))
      rw [← String.toList_map, String.ofList_toList] at h
      have hquote : lineFeed '"' = '"' := rfl
      simpa [erase, mapCharacters, atomForm_string, hquote] using Spells.atom (n := n) h
    | pair m first rest => exact absurd rfl (hp m first rest)
    | _ => cases hreturn
  · -- an atom without carriage returns has the same text in a file
    have hform : '\r' ∉ v.atomForm :=
      fun h => hreturn (mem_characters_of_mem_atomForm rfl hv hs h).1
    rw [(mapCharacters_lineFeed_iff v).2 hreturn, map_lineFeed_eq_self_iff.2 hform]
    exact spells_atomForm hp hv hs n hr

end Object

/-! ### A definition in a text -/

/-- The form `(define x 'd)`. -/
def quotedDefinition (d : Datum) : Datum :=
  .ofList () [.symbol ⟨"define"⟩, .symbol ⟨"x"⟩, .ofList () [.symbol .quote, d] .nil] .nil

/-- The definition of `x` as a quoted text. -/
def definitionText (text : String) : String := "(define x '" ++ text ++ ")"

theorem toList_definitionText (w : List Char) : (definitionText (String.ofList w)).toList =
    "(define x '".toList ++ (w ++ [')']) := by
  simp [definitionText]

/-- The store `t` is the store `s` after `x` was bound in the frame `f` to a value with the content
`d`. -/
def Binds (d : Datum) (f : FrameId) (s t : Store) : Prop :=
  ∃ w m, w.erase = d ∧ t = ({ s with fresh := m } : Store).put f ⟨"x"⟩ w ∧
    (t.frame f).get? ⟨"x"⟩ = some w

variable {limits : Limits} {f : FrameId} {s : Store}

theorem evalForm_quotedDefinition (hn : 0 < limits.nesting) (hr : 2 ≤ limits.rounds)
    (hf : f ≠ Store.empty) (hs : f < s.frames.size) (d : Datum) :
    ∃ t, evalForm limits (quotedDefinition d) f s = .ok (.symbol .ok) t ∧ Binds d f s t := by
  obtain ⟨nesting, rounds⟩ := limits
  obtain ⟨n, rfl⟩ : ∃ n, nesting = n + 1 := ⟨nesting - 1, by simp only at hn; omega⟩
  obtain ⟨k, rfl⟩ : ∃ k, rounds = k + 2 := ⟨rounds - 2, by simp only at hr; omega⟩
  obtain ⟨f, rfl⟩ := Nat.exists_eq_add_one_of_ne_zero hf
  -- the form has five pairs besides the datum
  let w := (d.place (s.fresh + 5)).1
  let s' : Store := { s with fresh := (d.place (s.fresh + 5)).2 }
  refine ⟨s'.put (f + 1) ⟨"x"⟩ w, rfl, w, _, Datum.erase_place _ _, rfl, ?_⟩
  rw [Store.frame_put, if_pos ⟨rfl, hs⟩]
  exact (Bindings.lookup_put ..).trans (if_pos rfl)

theorem spells_quotedDefinition {n : Nat} {d : Datum} {w : List Char}
    (h : Spells n d (w ++ [')']) [')']) :
    Spells (n + 2) (quotedDefinition d) ("(define x '".toList ++ (w ++ [')'])) [] := by
  have hdefine : (⟨"define"⟩ : Symbol).IsReadable :=
    .inr (.inr ⟨'d', ['e', 'f', 'i', 'n', 'e'], rfl, by decide, by simp; decide⟩)
  have hx : (⟨"x"⟩ : Symbol).IsReadable := .inr (.inr ⟨'x', [], rfl, by decide, by simp⟩)
  exact .list (.cons .nil (.atom (atom_of_isReadable hdefine rfl))
    (.cons (.blank rfl .nil) (.atom (atom_of_isReadable hx rfl))
      (.cons (.blank rfl .nil) (.quote .nil h) .nil))) .nil

/-- A text of the definition is run by making it, whatever datum the quoted text spells. -/
theorem runStream_quotedDefinition {n : Nat} {d : Datum} {w : List Char} {t : Store}
    (h : Spells n d (w ++ [')']) [')']) (hn : limits.nesting = n + 2)
    (ht : evalForm limits (quotedDefinition d) f s = .ok (.symbol .ok) t) (count : Nat)
    (last : Value) :
    runStream limits f true (count + 1) (.ofString (definitionText (String.ofList w))) last s =
      (⟨[quotedDefinition d], .ok (.symbol .ok)⟩, t) := by
  have hs := delivers_ofString (definitionText (String.ofList w))
  rw [toList_definitionText] at hs
  obtain ⟨u, hread, hu⟩ := read_of_spells ⟨hs, rfl⟩ .nil (spells_quotedDefinition h)
  rw [← hn] at hread
  exact runStream_of_read hread hu.delivers ht count last

/-! ### Evaluating and loading the definition -/

section Written

variable {v : Object ι} {t : Store} (hv : v.IsPlain) (hs : ∀ n ∈ v.symbols, n.IsReadable)
  (hn : v.levels + 2 ≤ limits.nesting)

include hv hs hn

theorem perform_eval_definition
    (ht : evalForm limits (quotedDefinition v.erase) f s = .ok (.symbol .ok) t) :
    (Action.eval (definitionText (String.ofList v.form))).perform limits s f =
      (.text "ok", t) := by
  obtain ⟨n, hn'⟩ : ∃ n, limits.nesting = n + 2 := ⟨limits.nesting - 2, by omega⟩
  have hform := spells_form hv hs (n := n) (r := [')']) (by omega) rfl
  simp only [Action.perform, Action.answerOf, evalText, runText,
    runStream_quotedDefinition hform hn' ht]
  rw [hn']
  rfl

/-- A file is read with line feeds for the carriage returns in it. -/
theorem perform_load_definition (ht : evalForm limits
    (quotedDefinition (v.erase.mapCharacters lineFeed)) f s = .ok (.symbol .ok) t) :
    (Action.load (definitionText (String.ofList v.form)).toUTF8).perform limits s f =
      (.loaded, t) := by
  obtain ⟨n, hn'⟩ : ∃ n, limits.nesting = n + 2 := ⟨limits.nesting - 2, by omega⟩
  have hform := (spells_map_form rfl rfl rfl rfl spellsAtoms_lineFeed hv hs).1 (n := n)
    (r := [')']) (by omega) rfl
  have hfile : String.ofList (lineFeeds (definitionText (String.ofList v.form)).toList) =
      definitionText (String.ofList (v.form.map lineFeed)) := by
    rw [toList_definitionText, lineFeeds_eq_map, ← String.toList_inj, String.toList_ofList,
      toList_definitionText, List.map_append, List.map_append]
    · rfl
    · simp [(newline_notMem_form hv hs).1]
  simp only [Action.perform, runFile, ofBytes_toUTF8_eq, hfile,
    runStream_quotedDefinition hform hn' ht]

end Written

/-- **What is written to a file is loaded but for carriage returns.** Let the text of a plain object
whose symbols can be spelt stand quoted in a definition of `x`. Evaluating this text binds
`x` to the content of the object. Loading a file that holds it succeeds and binds `x` to this
content with a line feed for every carriage return. So it is the same content, and the same
store is left, just if the object has no carriage return in its characters and strings. -/
theorem load_written {v : Object ι} (hv : v.IsPlain) (hs : ∀ n ∈ v.symbols, n.IsReadable)
    (hn : v.levels + 2 ≤ limits.nesting) (hr : 2 ≤ limits.rounds) (hf : f ≠ Store.empty)
    (hsize : f < s.frames.size) :
    ∃ text t t', v.write limits.nesting = .ok text ∧
      (Action.eval (definitionText text)).perform limits s f = (.text "ok", t) ∧
      (Action.load (definitionText text).toUTF8).perform limits s f = (.loaded, t') ∧
      Binds v.erase f s t ∧ Binds (v.erase.mapCharacters lineFeed) f s t' ∧
      (v.erase.mapCharacters lineFeed = v.erase ↔ '\r' ∉ v.characters) ∧
      ('\r' ∉ v.characters → t' = t) := by
  have hdefine := evalForm_quotedDefinition (Nat.lt_of_lt_of_le (Nat.succ_pos _) hn) hr hf hsize
  obtain ⟨t, ht, hbinds⟩ := hdefine v.erase
  obtain ⟨t', ht', hbinds'⟩ := hdefine (v.erase.mapCharacters lineFeed)
  refine ⟨String.ofList v.form, t, t', write_eq hv (by omega),
    perform_eval_definition hv hs hn ht, perform_load_definition hv hs hn ht', hbinds, hbinds',
    mapCharacters_lineFeed_iff v, fun hreturn => ?_⟩
  rw [(mapCharacters_lineFeed_iff v).2 hreturn, ht] at ht'
  cases ht'
  rfl

/-- The list `("a" . b)` is loaded as it was written. -/
theorem load_written_list :
    let v : Datum := .pair () (.string () "a") (.symbol ⟨"b"⟩)
    ∃ text t, v.write 4 = .ok text ∧
      (Action.load (definitionText text).toUTF8).perform ⟨4, 2⟩ .initial Store.global =
        (.loaded, t) ∧ Binds v Store.global .initial t := by
  intro v
  have hb : (⟨"b"⟩ : Symbol).IsReadable := .inr (.inr ⟨'b', [], rfl, by decide, by simp⟩)
  have hv : v.IsPlain := ⟨trivial, trivial⟩
  have hn : v.levels + 2 ≤ (⟨4, 2⟩ : Limits).nesting := by decide
  have hsize : Store.global < Store.initial.frames.size := by decide
  obtain ⟨text, t, t', htext, -, hload, hbinds, -, -, hsame⟩ := load_written hv
    (List.forall_mem_singleton.2 hb) hn (by decide) (by decide) hsize
  rw [hsame (by decide)] at hload
  exact ⟨text, t, htext, hload, hbinds⟩

/-- The carriage return is loaded as a line feed. -/
theorem load_carriage_return :
    let v : Datum := .character '\r'
    v.write 3 = .ok "#\\\r" ∧ ∃ t w,
      (Action.load (definitionText "#\\\r").toUTF8).perform ⟨3, 2⟩ .initial Store.global =
        (.loaded, t) ∧ (t.frame Store.global).get? ⟨"x"⟩ = some w ∧ w.erase = .character '\n' := by
  intro v
  have hn : v.levels + 2 ≤ (⟨3, 2⟩ : Limits).nesting := by decide
  have hsize : Store.global < Store.initial.frames.size := by decide
  obtain ⟨t, ht, w, m, hw, -, hget⟩ := evalForm_quotedDefinition
    (Nat.lt_of_lt_of_le (Nat.succ_pos _) hn) (by decide) (by decide) hsize (.character '\n')
  have hload := perform_load_definition (v := v) trivial nofun hn ht
  exact ⟨rfl, t, w, hload, hget, hw⟩

end SmallScheme
