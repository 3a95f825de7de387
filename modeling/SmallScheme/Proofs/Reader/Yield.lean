import SmallScheme.Proofs.Object.Writer
import SmallScheme.Proofs.Sequencing
import SmallScheme.Reader.Datum

/-!
# What the reader yields

Whatever a stream holds, also after a fault and with any items pushed back, the reader yields
plain data: booleans, fixnums, characters, strings, empty lists, symbols and pairs of these.
-/

namespace SmallScheme.Reader

open Object Sequencing

/-- Every answer of the computation has the property `P`. -/
def Yields {α : Type} (P : α → Prop) (x : ReadM α) : Prop := ∀ s a t, x s = .ok a t → P a

namespace Yields

variable {α β : Type} {P : α → Prop} {Q : β → Prop}

theorem pure {a : α} (h : P a) : Yields P (pure a) := by
  intro s b t hb
  cases hb
  exact h

theorem throw (e : ReadError) : Yields P (throw e) := by
  intro s a t h
  cases h

theorem fail (fault : ReadFault) : Yields P (fail fault) := by
  intro s a t h
  cases h

theorem bind {x : ReadM α} {k : α → ReadM β} (hx : Yields P x) (hk : ∀ a, P a → Yields Q (k a)) :
    Yields Q (x >>= k) := by
  intro s b u h
  obtain ⟨a, t, ha, hb⟩ := bind_eq_ok_iff.1 h
  exact hk a (hx s a t ha) t b u hb

/-- A step about whose answer nothing has to be known. -/
theorem after {x : ReadM α} {k : α → ReadM β} (hk : ∀ a, Yields Q (k a)) : Yields Q (x >>= k) :=
  bind (P := fun _ => True) (fun _ _ _ _ => trivial) fun a _ => hk a

theorem ite {c : Prop} [Decidable c] {x y : ReadM α} (hx : c → Yields P x)
    (hy : ¬ c → Yields P y) : Yields P (if c then x else y) := by
  by_cases h : c
  · rw [if_pos h]
    exact hx h
  · rw [if_neg h]
    exact hy h

end Yields

/-! ### Atoms -/

theorem yields_readCharacter : Yields IsPlain readCharacter := by
  refine .after fun item => ?_
  cases item with
  | none => exact .fail _
  | some c =>
    refine .after fun item => .ite (fun _ => ?_) fun _ => .ite (fun _ => ?_) fun _ => ?_
    · exact .after fun _ => .after fun _ => .pure trivial
    · exact .after fun _ => .after fun _ => .pure trivial
    · exact .after fun _ => .pure trivial

theorem yields_readHash : Yields IsPlain readHash := by
  refine .after fun item => .ite (fun _ => ?_) fun _ => .ite (fun _ => ?_) fun _ =>
    .ite (fun _ => yields_readCharacter) fun _ => .fail _
  · exact .after fun _ => .pure trivial
  · exact .after fun _ => .pure trivial

theorem yields_readNumber (negative : Bool) (digits : List Char) :
    Yields IsPlain (readNumber negative digits) := by
  refine .after fun ds => .after fun _ => .ite (fun h => .pure h) fun _ => ?_
  exact .ite (fun _ => .fail _) fun _ => .throw _

theorem yields_readSymbol (c : Char) : Yields IsPlain (readSymbol c) :=
  .after fun _ => .pure trivial

theorem yields_readSigned (c : Char) : Yields IsPlain (readSigned c) :=
  .after fun _ => .ite (fun _ => yields_readNumber _ _) fun _ =>
    .ite (fun _ => yields_readSymbol c) fun _ => .fail _

theorem yields_readString : Yields IsPlain readString := by
  refine .after fun body => ?_
  cases body with
  | none => exact .fail _
  | some cs => exact .pure trivial

/-! ### Lists and data -/

section Inner

variable {inner : Char → ReadM Datum} (h : ∀ c, Yields IsPlain (inner c))

include h

theorem yields_readRequired (awaiting : Awaiting) :
    Yields IsPlain (readRequired inner awaiting) := by
  refine .after fun item => ?_
  cases item with
  | none => exact .fail _
  | some c => exact h c

theorem yields_readTail : Yields IsPlain (readTail inner) :=
  .after fun _ => .bind (yields_readRequired h _) fun _ hd => .after fun _ =>
    .ite (fun _ => .pure hd) fun _ => .fail _

theorem yields_readItems (budget : Nat) {items : List Datum} (hi : ∀ d ∈ items, d.IsPlain) :
    Yields IsPlain (readItems inner budget items) := by
  induction budget generalizing items with
  | zero => exact .fail _
  | succ budget ih =>
    have hr : ∀ d ∈ items.reverse, d.IsPlain := fun d hd => hi d (List.mem_reverse.1 hd)
    refine .after fun item => ?_
    cases item with
    | none => exact .fail _
    | some c =>
      refine .ite (fun _ => .pure (isPlain_ofList hr trivial)) fun _ =>
        .ite (fun _ => ?_) fun _ => ?_
      · exact .ite (fun _ => .fail _) fun _ =>
          .bind (yields_readTail h) fun _ ht => .pure (isPlain_ofList hr ht)
      · exact .bind (h c) fun _ hd => ih (List.forall_mem_cons.2 ⟨hd, hi⟩)

theorem yields_readFrom (budget : Nat) (c : Char) : Yields IsPlain (readFrom inner budget c) := by
  refine .ite (fun _ => yields_readHash) fun _ => .ite (fun _ => yields_readNumber _ _) fun _ =>
    .ite (fun _ => yields_readSigned c) fun _ => .ite (fun _ => yields_readString) fun _ =>
    .ite (fun _ => yields_readSymbol c) fun _ =>
    .ite (fun _ => yields_readItems h budget (by simp)) fun _ => .ite (fun _ => ?_) fun _ => .fail _
  exact .bind (yields_readRequired h _) fun _ hd => .pure ⟨trivial, hd, trivial⟩

end Inner

theorem yields_readDatum (budget nesting : Nat) (c : Char) :
    Yields IsPlain (readDatum budget nesting c) := by
  induction nesting generalizing c with
  | zero => exact .fail _
  | succ nesting ih => exact yields_readFrom ih budget c

/-- **The reader yields plain data**, whatever stream it reads from. -/
theorem isPlain_of_read {nesting : Nat} {s t : CharStream} {d : Datum}
    (h : read nesting s = .ok (some d) t) : d.IsPlain := by
  have hy : Yields (fun o : Option Datum => ∀ d ∈ o, d.IsPlain) (read nesting) := by
    refine .after fun item => ?_
    cases item with
    | none => exact .pure (by simp)
    | some c =>
      refine .after fun _ => .bind (yields_readDatum _ nesting c) fun d hd => .pure ?_
      simpa using hd
  exact hy s _ t h d rfl

end SmallScheme.Reader
