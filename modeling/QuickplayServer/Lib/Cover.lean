import Mathlib

/-!
# QuickplayServer.Lib.Cover

Finite sets that are counted instead of being marked off.

Parts of a finite set whose sizes add up to its size cover it exactly when no
two of them overlap (`covers_iff_disjoint`).
-/

variable {α : Type} [DecidableEq α]

namespace Cover

/-- All that lies in one of the parts. -/
def union (parts : List (Finset α)) : Finset α := parts.foldr (· ∪ ·) ∅

@[simp] theorem union_nil : union ([] : List (Finset α)) = ∅ := rfl

@[simp] theorem union_cons (part : Finset α) (parts : List (Finset α)) :
    union (part :: parts) = part ∪ union parts := rfl

theorem mem_union {parts : List (Finset α)} {a : α} :
    a ∈ union parts ↔ ∃ part ∈ parts, a ∈ part := by
  induction parts with
  | nil => simp
  | cons part parts ih => simp [ih]

theorem union_subset {parts : List (Finset α)} {whole : Finset α}
    (h : ∀ part ∈ parts, part ⊆ whole) :
    union parts ⊆ whole := by
  intro a ha
  obtain ⟨part, hmem, ha⟩ := mem_union.mp ha
  exact h part hmem ha

theorem card_union_le (parts : List (Finset α)) :
    (union parts).card ≤ (parts.map Finset.card).sum := by
  induction parts with
  | nil => rfl
  | cons part parts ih =>
      rw [union_cons, List.map_cons, List.sum_cons]
      exact (Finset.card_union_le part _).trans (Nat.add_le_add_left ih _)

theorem disjoint_union_iff {part : Finset α} {parts : List (Finset α)} :
    Disjoint part (union parts) ↔ ∀ other ∈ parts, Disjoint part other := by
  induction parts with
  | nil => simp
  | cons other parts ih => simp [Finset.disjoint_union_right, ih]

/-- The parts are counted right exactly when no two of them overlap. -/
theorem card_union_eq_iff {parts : List (Finset α)} :
    (union parts).card = (parts.map Finset.card).sum ↔ parts.Pairwise Disjoint := by
  induction parts with
  | nil => simp
  | cons part parts ih =>
      have hinter := Finset.card_union_add_card_inter part (union parts)
      have hle := card_union_le parts
      rw [List.pairwise_cons, ← disjoint_union_iff, ← ih, Finset.disjoint_iff_inter_eq_empty,
        ← Finset.card_eq_zero, union_cons, List.map_cons, List.sum_cons]
      omega

/-- Parts of a set with as many elements in all as the set has cover it exactly
when no two of them overlap. -/
theorem covers_iff_disjoint {parts : List (Finset α)} {whole : Finset α}
    (hparts : ∀ part ∈ parts, part ⊆ whole) (hcount : (parts.map Finset.card).sum = whole.card) :
    (∀ a ∈ whole, ∃ part ∈ parts, a ∈ part) ↔ parts.Pairwise Disjoint := by
  rw [← card_union_eq_iff, hcount]
  constructor
  · intro h
    have hwhole : whole ⊆ union parts := fun a ha => mem_union.mpr (h a ha)
    rw [(union_subset hparts).antisymm hwhole]
  · intro h a ha
    rw [← mem_union, Finset.eq_of_subset_of_card_le (union_subset hparts) h.ge]
    exact ha

end Cover
