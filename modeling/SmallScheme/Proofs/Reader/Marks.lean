import Mathlib.Data.List.ReduceOption
import Mathlib.Data.List.TakeWhile
import SmallScheme.CharStream

/-!
# Marks for an end of input

An end of input can be pushed back like a character, and a stream may then hold marks for it
between the characters to come. An interactive source that reports an end of input and goes on
afterwards is such a stream too. Skipping blanks and comments is described here for all streams, by
the items that they deliver.

A comment ends with its line: behind a newline, or at an end of input. Outside comments an end of
input is left to be delivered. But an end of input that ends a comment is taken together with the
comment, and skipping goes on behind it.

## The model

`Passes leave items r` says that the items are blanks and comments, followed by `r`. What a comment
leaves of the item that ends it and of those behind it is told by `leave`. Skipping leaves what is
behind that item (`List.tail`). To have every end of input delivered, it would have to leave all but
a newline (`behindNewline`).
-/

namespace SmallScheme.CharStream

/-! ### The items of a stream -/

/-- The items that a stream delivers before its source is asked at its end. After them it
delivers nothing but ends of input. -/
def items (s : CharStream) : List (Option Char) := s.pushback ++ s.source.map some

/-- The position behind all items of a stream. -/
def goal (s : CharStream) : Int := s.position + s.items.reduceOption.length

variable {s t : CharStream} {items r r' : List (Option Char)}

/-- The next item is the first one, or an end of input if there is none. -/
theorem items_next (s : CharStream) : s.next.1 = s.items.head?.join ∧
    s.next.2.items = s.items.tail ∧ s.next.2.goal = s.goal := by
  obtain ⟨pushback, source, p, x⟩ := s
  rcases pushback with _ | ⟨_ | c, pushback⟩
  · cases source with
    | nil => exact ⟨rfl, rfl, rfl⟩
    | cons c source =>
      refine ⟨rfl, rfl, ?_⟩
      simp only [next, goal, CharStream.items, List.nil_append, List.map_cons,
        List.reduceOption_cons_of_some, List.length_cons]
      omega
  · exact ⟨rfl, rfl, rfl⟩
  · refine ⟨rfl, rfl, ?_⟩
    simp only [next, goal, CharStream.items, List.cons_append, List.reduceOption_cons_of_some,
      List.length_cons]
    omega

@[simp]
theorem items_unread (s : CharStream) (item : Option Char) :
    (s.unread item).items = item :: s.items := by
  cases item <;> rfl

@[simp]
theorem goal_unread (s : CharStream) (item : Option Char) : (s.unread item).goal = s.goal := by
  have h := (items_next (s.unread item)).2.2
  rw [next_unread] at h
  exact h.symm

theorem eq_cons_of_head?_join {c : Char} (h : items.head?.join = some c) :
    items = some c :: items.tail := by
  cases items with
  | nil => cases h
  | cons item items => exact congrArg (· :: items) h

theorem items_of_next_some {c : Char} (h : s.next = (some c, t)) :
    s.items = some c :: t.items ∧ t.goal = s.goal := by
  obtain ⟨hitem, hitems, hgoal⟩ := items_next s
  rw [h] at hitem hitems hgoal
  exact ⟨hitems ▸ eq_cons_of_head?_join hitem.symm, hgoal⟩

theorem items_of_next_none (h : s.next = (none, t)) :
    s.items.head?.join = none ∧ t.items = s.items.tail ∧ t.goal = s.goal := by
  obtain ⟨hitem, hitems, hgoal⟩ := items_next s
  rw [h] at hitem hitems hgoal
  exact ⟨hitem.symm, hitems, hgoal⟩

/-! ### Blanks and comments -/

/-- The items from the end of a line on: from the first that is a newline or an end of input. -/
def lineEnd (items : List (Option Char)) : List (Option Char) :=
  items.dropWhile fun item => item.any (· ≠ '\n')

/-- All items if they do not start with a newline, and otherwise all but this. -/
def behindNewline : List (Option Char) → List (Option Char)
  | some '\n' :: items => items
  | items => items

/-- `Passes leave items r`: the items are blanks and comments, followed by `r`. Of a comment
`leave` tells what is behind it, given the items from the end of its line on. -/
inductive Passes (leave : List (Option Char) → List (Option Char)) :
    List (Option Char) → List (Option Char) → Prop
  /-- Nothing. -/
  | nil {r : List (Option Char)} : Passes leave r r
  /-- A blank before others. -/
  | blank {c : Char} {items r : List (Option Char)} (hc : Text.isBlank c = true)
      (h : Passes leave items r) : Passes leave (some c :: items) r
  /-- A comment before others. -/
  | comment {items r : List (Option Char)} (h : Passes leave (leave (lineEnd items)) r) :
      Passes leave (some ';' :: items) r

/-- The items start with neither a blank nor a comment. -/
def IsClear (items : List (Option Char)) : Prop :=
  ∀ c ∈ items.head?.join, Text.isBlank c = false ∧ c ≠ ';'

/-- Behind the longest run of blanks and comments that the items start with, `r` is left. -/
structure PassesAll (leave : List (Option Char) → List (Option Char))
    (items r : List (Option Char)) : Prop where
  passes : Passes leave items r
  isSuffix {r' : List (Option Char)} (h : Passes leave items r') : r <:+ r'

theorem lineEnd_suffix (items : List (Option Char)) : lineEnd items <:+ items :=
  List.dropWhile_suffix _

theorem behindNewline_suffix (items : List (Option Char)) : behindNewline items <:+ items := by
  unfold behindNewline
  split
  · exact List.suffix_cons _ _
  · exact List.suffix_refl _

section Passes

variable {leave : List (Option Char) → List (Option Char)}

theorem isClear_cons_iff {c : Char} :
    IsClear (some c :: items) ↔ Text.isBlank c = false ∧ c ≠ ';' := by
  simp [IsClear]

/-- Of items that start with neither a blank nor a comment nothing is passed. -/
theorem Passes.eq_of_isClear (h : Passes leave items r) (hc : IsClear items) : r = items := by
  cases h with
  | nil => rfl
  | blank hb => cases hb.symm.trans (isClear_cons_iff.1 hc).1
  | comment => exact absurd rfl (isClear_cons_iff.1 hc).2

theorem Passes.isSuffix (hleave : ∀ items, leave items <:+ items) (h : Passes leave items r) :
    r <:+ items := by
  induction h with
  | nil => exact List.suffix_refl _
  | blank _ _ ih => exact ih.trans (List.suffix_cons _ _)
  | @comment items _ _ ih =>
    exact ih.trans ((hleave _).trans ((lineEnd_suffix items).trans (List.suffix_cons _ _)))

/-- What has passed some of the blanks and comments goes on to what has passed all of them. -/
theorem Passes.of_isClear (h : Passes leave items r) (hc : IsClear r)
    (h' : Passes leave items r') : Passes leave r' r := by
  induction h' with
  | nil => exact h
  | blank hb _ ih =>
    cases h with
    | nil => cases hb.symm.trans (isClear_cons_iff.1 hc).1
    | blank _ h => exact ih h
    | comment => cases hb
  | comment _ ih =>
    cases h with
    | nil => exact absurd rfl (isClear_cons_iff.1 hc).2
    | blank hb => cases hb
    | comment h => exact ih h

/-- The run of blanks and comments is the longest if it is followed by neither. -/
theorem Passes.passesAll (hleave : ∀ items, leave items <:+ items) (h : Passes leave items r)
    (hc : IsClear r) : PassesAll leave items r :=
  ⟨h, fun h' => (h.of_isClear hc h').isSuffix hleave⟩

theorem PassesAll.unique (h : PassesAll leave items r) (h' : PassesAll leave items r') :
    r = r' :=
  (h.isSuffix h'.passes).eq_of_length_le (h'.isSuffix h.passes).length_le

/-- Every list of items starts with a longest run of blanks and comments. -/
theorem exists_passes (hleave : ∀ items, leave items <:+ items) (items : List (Option Char)) :
    ∃ r, Passes leave items r ∧ IsClear r := by
  induction hn : items.length using Nat.strongRecOn generalizing items with
  | _ n ih =>
    subst hn
    rcases items with _ | ⟨_ | c, items⟩
    · exact ⟨[], .nil, nofun⟩
    · exact ⟨none :: items, .nil, nofun⟩
    · by_cases hb : Text.isBlank c = true
      · obtain ⟨r, h, hc⟩ := ih items.length (Nat.lt_succ_self _) items rfl
        exact ⟨r, .blank hb h, hc⟩
      · by_cases hs : c = ';'
        · subst hs
          have hle := ((hleave _).trans (lineEnd_suffix items)).length_le
          obtain ⟨r, h, hc⟩ := ih _ (Nat.lt_succ_of_le hle) _ rfl
          exact ⟨r, .comment h, hc⟩
        · exact ⟨some c :: items, .nil, isClear_cons_iff.2 ⟨by simpa using hb, hs⟩⟩

end Passes

/-! ### Skipping -/

/-- Skipping a line takes the item that ends it, be it a newline or an end of input. -/
theorem items_skipLine (s : CharStream) :
    s.skipLine.items = (lineEnd s.items).tail ∧ s.skipLine.goal = s.goal := by
  fun_induction skipLine s with
  | case1 s t hn =>
    obtain ⟨hitems, hgoal⟩ := items_of_next_some hn
    rw [hitems]
    exact ⟨rfl, hgoal⟩
  | case2 s c t hn hc ih =>
    obtain ⟨hitems, hgoal⟩ := items_of_next_some hn
    rw [hitems, lineEnd, List.dropWhile_cons_of_pos (by simpa using hc), ← hgoal]
    exact ih
  | case3 s t hn =>
    obtain ⟨hitem, hitems, hgoal⟩ := items_of_next_none hn
    refine ⟨hitems.trans (congrArg List.tail ?_), hgoal⟩
    cases hs : s.items with
    | nil => rfl
    | cons item items =>
      obtain rfl : item = none := by simpa [hs] using hitem
      rfl

/-- Skipping passes blanks and comments, and pushes the first other item back. -/
theorem exists_passes_skipAtmosphere (s : CharStream) :
    ∃ r, Passes List.tail s.items r ∧ IsClear r ∧
      s.skipAtmosphere.pushback.head? = some r.head?.join ∧
      s.skipAtmosphere.items = r.head?.join :: r.tail ∧ s.skipAtmosphere.goal = s.goal := by
  fun_induction skipAtmosphere s with
  | case1 s c t hn hb ih =>
    obtain ⟨hitems, hgoal⟩ := items_of_next_some hn
    obtain ⟨r, h, hr⟩ := ih
    rw [hitems, ← hgoal]
    exact ⟨r, .blank hb h, hr⟩
  | case2 s t hn hb ih =>
    obtain ⟨hitems, hgoal⟩ := items_of_next_some hn
    obtain ⟨r, h, hr⟩ := ih
    obtain ⟨hline, hgoal'⟩ := items_skipLine t
    rw [hline] at h
    rw [hitems, ← hgoal, ← hgoal']
    exact ⟨r, .comment h, hr⟩
  | case3 s c t hn hb hs =>
    obtain ⟨hitems, hgoal⟩ := items_of_next_some hn
    rw [hitems, ← hgoal]
    exact ⟨some c :: t.items, .nil, isClear_cons_iff.2 ⟨by simpa using hb, hs⟩, rfl,
      items_unread _ _, goal_unread _ _⟩
  | case4 s t hn =>
    obtain ⟨hitem, hitems, hgoal⟩ := items_of_next_none hn
    refine ⟨s.items, .nil, ?_, ?_, ?_, ?_⟩
    · rw [IsClear, hitem]
      nofun
    · rw [hitem]
      rfl
    · rw [hitem, ← hitems]
      exact items_unread _ _
    · rw [← hgoal]
      exact goal_unread _ _

/-! ### Marks that are taken -/

/-- A line ends with a newline, at a mark for an end of input, or with the items. -/
theorem lineEnd_cases (items : List (Option Char)) : lineEnd items = [] ∨
    (∃ r, lineEnd items = none :: r) ∨ ∃ r, lineEnd items = some '\n' :: r := by
  cases h : lineEnd items with
  | nil => exact .inl rfl
  | cons item r =>
    cases item with
    | none => exact .inr (.inl ⟨r, rfl⟩)
    | some c =>
      have hc := List.head?_dropWhile_not (fun item : Option Char => item.any (· ≠ '\n')) items
      rw [← lineEnd, h] at hc
      obtain rfl : c = '\n' := by simpa using hc
      exact .inr (.inr ⟨r, rfl⟩)

@[simp]
theorem count_none_lineEnd (items : List (Option Char)) :
    (lineEnd items).count none = items.count none := by
  have hnone : none ∉ items.takeWhile fun item => item.any (· ≠ '\n') := fun h => by
    cases List.mem_takeWhile_imp h
  conv_rhs => rw [← List.takeWhile_append_dropWhile (p := fun item => item.any (· ≠ '\n'))
    (l := items), List.count_append, List.count_eq_zero_of_not_mem hnone, Nat.zero_add]
  rfl

@[simp]
theorem count_none_behindNewline (items : List (Option Char)) :
    (behindNewline items).count none = items.count none := by
  unfold behindNewline
  split
  · simp
  · rfl

/-- Comments that leave every mark to be delivered pass none. -/
theorem Passes.count_none (h : Passes behindNewline items r) :
    r.count none = items.count none := by
  induction h with
  | nil => rfl
  | blank _ _ ih => simpa using ih
  | comment _ ih => simpa using ih

/-- If no mark is passed, comments that leave every mark to be delivered pass as much. -/
theorem Passes.behindNewline (h : Passes List.tail items r)
    (hcount : r.count none = items.count none) : Passes behindNewline items r := by
  induction h with
  | nil => exact .nil
  | blank hb _ ih => exact .blank hb (ih (by simpa using hcount))
  | @comment items r h ih =>
    have hle := (h.isSuffix List.tail_suffix).sublist.count_le none
    rw [List.count_cons_of_ne (by simp), ← count_none_lineEnd items] at hcount
    refine .comment ?_
    rcases lineEnd_cases items with hend | ⟨m, hend⟩ | ⟨m, hend⟩
    all_goals rw [hend] at ih hcount hle ⊢
    · exact ih hcount
    · simp only [List.tail_cons, List.count_cons_self] at hcount hle
      omega
    · exact ih (by simpa using hcount)

/-- If comments leave every mark to be delivered, what they end at is a mark, or no comment has
passed one anyway. -/
theorem Passes.tail (h : Passes CharStream.behindNewline items r) (hc : IsClear r) :
    r.head? = some none ∨ Passes List.tail items r := by
  induction h with
  | nil => exact .inr .nil
  | blank hb _ ih => exact (ih hc).imp_right (.blank hb)
  | @comment items r h ih =>
    rcases lineEnd_cases items with hend | ⟨m, hend⟩ | ⟨m, hend⟩
    all_goals rw [hend] at h ih
    · exact (ih hc).imp_right fun h => .comment (by rwa [hend])
    · -- no blank and no comment starts with a mark
      obtain rfl := h.eq_of_isClear nofun
      exact .inl rfl
    · exact (ih hc).imp_right fun h => .comment (by rwa [hend])

/-- **Skipping blanks and comments takes the marks that end comments.** The items that are removed
are the longest run of blanks and comments, where a comment goes as far as the next newline or end
of input, and takes it along. The position grows by the number of characters among them. The first
other item is pushed back, so it is delivered next without asking the source.

If comments left every end of input to be delivered, skipping would end with the same items left
just if none of those removed is a mark, and otherwise before a mark. -/
theorem skipAtmosphere_takes_marks (s : CharStream) :
    ∃ w r, s.items = w ++ r ∧ PassesAll List.tail s.items r ∧ IsClear r ∧
      s.skipAtmosphere.position = s.position + w.reduceOption.length ∧
      s.skipAtmosphere.pushback.head? = some r.head?.join ∧
      s.skipAtmosphere.next.1 = r.head?.join ∧ s.skipAtmosphere.next.2.items = r.tail ∧
      ∃ r', PassesAll behindNewline s.items r' ∧ IsClear r' ∧ (r' = r ↔ none ∉ w) ∧
        (r' ≠ r → r'.head? = some none) := by
  obtain ⟨r, h, hc, hpushback, hitems, hgoal⟩ := exists_passes_skipAtmosphere s
  obtain ⟨w, hw⟩ := h.isSuffix List.tail_suffix
  obtain ⟨r', h', hc'⟩ := exists_passes behindNewline_suffix s.items
  have hall := h.passesAll List.tail_suffix hc
  have hall' := h'.passesAll behindNewline_suffix hc'
  obtain ⟨hnext, hrest, -⟩ := items_next s.skipAtmosphere
  rw [hitems] at hnext hrest
  have hcount : r.count none = s.items.count none ↔ none ∉ w := by
    rw [← hw, List.count_append, ← List.count_eq_zero]
    omega
  refine ⟨w, r, hw.symm, hall, hc, ?position, hpushback, hnext, hrest, r', hall', hc',
    ⟨?_, fun hnone => ?_⟩, fun hne => ?_⟩
  case position =>
    have hr : (r.head?.join :: r.tail).reduceOption = r.reduceOption := by
      cases r <;> rfl
    rw [goal, goal, hitems, hr, ← hw, List.reduceOption_append, List.length_append] at hgoal
    omega
  · rintro rfl
    exact hcount.1 h'.count_none
  · exact hall'.unique ((h.behindNewline (hcount.2 hnone)).passesAll behindNewline_suffix hc)
  · refine (h'.tail hc').resolve_right fun htail => hne ?_
    exact (htail.passesAll List.tail_suffix hc').unique hall

/-- A mark that ends a comment is not delivered: the character behind it comes next. -/
theorem skipAtmosphere_loses_mark :
    let s := (((ofString "").unread (some 'a')).unread none).unread (some ';')
    s.items = [some ';', none, some 'a'] ∧ PassesAll behindNewline s.items [none, some 'a'] ∧
      s.skipAtmosphere.next.1 = some 'a' := by
  refine ⟨rfl, ?_, by with_unfolding_all rfl⟩
  exact (Passes.comment .nil).passesAll behindNewline_suffix nofun

end SmallScheme.CharStream
