import Mathlib

/-!
# QuickplayServer.Lib.Transfer

Values that are transferred in order, and the blocks they are cut into.

A `Fifo` is a reliable channel as its users see it: the values are received in
the order in which they were sent, each once, and the sender retires a value
only after it was received.  `SameBlocks` compares a buffer with the value that
is copied into it block by block.
-/

variable {α : Type}

/-! ## Reliable channels -/

/-- The values that were sent, and how many of them were received and retired. -/
@[ext] structure Fifo (α : Type) where
  sent : List α
  received : Nat
  retired : Nat
  retired_le : retired ≤ received
  received_le : received ≤ sent.length

namespace Fifo

/-- The values that were received. -/
def output (f : Fifo α) : List α := f.sent.take f.received

def send (f : Fifo α) (x : α) : Fifo α where
  sent := f.sent ++ [x]
  received := f.received
  retired := f.retired
  retired_le := f.retired_le
  received_le := f.received_le.trans (by simp)

/-- The next value is received. -/
def receive (f : Fifo α) (h : f.received < f.sent.length) : Fifo α where
  sent := f.sent
  received := f.received + 1
  retired := f.retired
  retired_le := Nat.le_succ_of_le f.retired_le
  received_le := h

/-- The first value that is not retired is retired. -/
def retire (f : Fifo α) (h : f.retired < f.received) : Fifo α where
  sent := f.sent
  received := f.received
  retired := f.retired + 1
  retired_le := h
  received_le := f.received_le

inductive Step : Fifo α → Fifo α → Prop
  | send (f : Fifo α) (x : α) : Step f (f.send x)
  | receive (f : Fifo α) (h : f.received < f.sent.length) : Step f (f.receive h)
  | retire (f : Fifo α) (h : f.retired < f.received) : Step f (f.retire h)

abbrev Steps : Fifo α → Fifo α → Prop := Relation.ReflTransGen Step

variable {f g : Fifo α}

/-- When all is retired, all was received. -/
theorem output_of_retired (h : f.retired = f.sent.length) : f.output = f.sent :=
  List.take_of_length_le (h ▸ f.retired_le)

theorem steps_send (f : Fifo α) (xs : List α) :
    ∃ g, Steps f g ∧ g.sent = f.sent ++ xs ∧ g.received = f.received ∧ g.retired = f.retired := by
  induction xs generalizing f with
  | nil => exact ⟨f, .refl, by simp, rfl, rfl⟩
  | cons x xs ih =>
      obtain ⟨g, hsteps, hsent, hreceived, hretired⟩ := ih (f.send x)
      exact ⟨g, .head (.send f x) hsteps, by simpa [send] using hsent, hreceived, hretired⟩

theorem steps_receive (f : Fifo α) {n : Nat} (h : f.received + n ≤ f.sent.length) :
    ∃ g, Steps f g ∧ g.sent = f.sent ∧ g.received = f.received + n ∧ g.retired = f.retired := by
  induction n with
  | zero => exact ⟨f, .refl, rfl, rfl, rfl⟩
  | succ n ih =>
      obtain ⟨g, hsteps, hsent, hreceived, hretired⟩ := ih (by omega)
      have hmore : g.received < g.sent.length := by rw [hsent, hreceived]; omega
      refine ⟨g.receive hmore, hsteps.tail (.receive g hmore), hsent, ?_, hretired⟩
      show g.received + 1 = _
      rw [hreceived]
      omega

theorem steps_retire (f : Fifo α) {n : Nat} (h : f.retired + n ≤ f.received) :
    ∃ g, Steps f g ∧ g.sent = f.sent ∧ g.received = f.received ∧ g.retired = f.retired + n := by
  induction n with
  | zero => exact ⟨f, .refl, rfl, rfl, rfl⟩
  | succ n ih =>
      obtain ⟨g, hsteps, hsent, hreceived, hretired⟩ := ih (by omega)
      have hmore : g.retired < g.received := by rw [hreceived, hretired]; omega
      refine ⟨g.retire hmore, hsteps.tail (.retire g hmore), hsent, hreceived, ?_⟩
      show g.retired + 1 = _
      rw [hretired]
      omega

/-- A channel on which everything is further along is some steps later. -/
theorem Steps.of_le (hsent : f.sent <+: g.sent) (hreceived : f.received ≤ g.received)
    (hretired : f.retired ≤ g.retired) : Steps f g := by
  obtain ⟨xs, hxs⟩ := hsent
  have hlength := congrArg List.length hxs
  have hbound := g.received_le
  have hbound' := g.retired_le
  obtain ⟨f₁, hsteps₁, hsent₁, hreceived₁, hretired₁⟩ := f.steps_send xs
  obtain ⟨f₂, hsteps₂, hsent₂, hreceived₂, hretired₂⟩ :=
    f₁.steps_receive (n := g.received - f.received) (by rw [hsent₁, hxs, hreceived₁]; omega)
  obtain ⟨f₃, hsteps₃, hsent₃, hreceived₃, hretired₃⟩ :=
    f₂.steps_retire (n := g.retired - f.retired)
      (by rw [hretired₂, hretired₁, hreceived₂, hreceived₁]; omega)
  have hg : f₃ = g := by
    apply Fifo.ext
    · rw [hsent₃, hsent₂, hsent₁, hxs]
    · omega
    · omega
  exact hg ▸ hsteps₁.trans (hsteps₂.trans hsteps₃)

end Fifo

/-! ## Blocks -/

/-- The lists have the same elements in the blocks `blocks` of `size` elements each. -/
def SameBlocks (size : Nat) (blocks : Finset Nat) (xs ys : List α) : Prop :=
  xs.length = ys.length ∧ ∀ i, i / size ∈ blocks → xs[i]? = ys[i]?

namespace SameBlocks

variable {size : Nat} {blocks : Finset Nat} {xs ys zs : List α}

theorem empty (h : xs.length = ys.length) : SameBlocks size ∅ xs ys := ⟨h, by simp⟩

/-- Copying more blocks. -/
theorem union (h : SameBlocks size blocks xs ys) {more : Finset Nat}
    (hlength : zs.length = xs.length)
    (hmore : ∀ i, i / size ∈ more → zs[i]? = ys[i]?)
    (hkeep : ∀ i, i / size ∉ more → zs[i]? = xs[i]?) : SameBlocks size (blocks ∪ more) zs ys := by
  refine ⟨hlength.trans h.1, fun i hi => ?_⟩
  by_cases him : i / size ∈ more
  · exact hmore i him
  · rw [hkeep i him]
    exact h.2 i ((Finset.mem_union.mp hi).resolve_right him)

/-- Lists with the same blocks are the same. -/
theorem eq (h : SameBlocks size blocks xs ys) (hall : ∀ i < xs.length, i / size ∈ blocks) :
    xs = ys := by
  apply List.ext_getElem?
  intro i
  by_cases hi : i < xs.length
  · exact h.2 i (hall i hi)
  · rw [List.getElem?_eq_none (Nat.le_of_not_lt hi),
      List.getElem?_eq_none (h.1 ▸ Nat.le_of_not_lt hi)]

end SameBlocks

/-! ## Blocks on their way -/

namespace InFlight

variable {ι : Type} [Fintype ι]

/-- The first `n` blocks, except for those in a part that was not kept. -/
def landed (part : ι → Finset Nat) (kept : ι → Prop) [DecidablePred kept] (n : Nat) : Finset Nat :=
  (Finset.range n).filter fun a => ∀ i, a ∈ part i → kept i

variable {part part' : ι → Finset Nat} {kept kept' : ι → Prop} [DecidablePred kept]
  [DecidablePred kept'] {n : Nat}

theorem mem_landed {a : Nat} : a ∈ landed part kept n ↔ a < n ∧ ∀ i, a ∈ part i → kept i := by
  rw [landed, Finset.mem_filter, Finset.mem_range]

theorem landed_subset : landed part kept n ⊆ Finset.range n := Finset.filter_subset _ _

/-- Only the parts that were not kept matter. -/
theorem landed_congr (h : ∀ i a, a ∈ part' i ∧ ¬ kept' i ↔ a ∈ part i ∧ ¬ kept i) :
    landed part' kept' n = landed part kept n := by
  ext a
  rw [mem_landed, mem_landed]
  have h : (∀ i, a ∈ part' i → kept' i) ↔ ∀ i, a ∈ part i → kept i := by
    refine forall_congr' fun i => ?_
    have := h i a
    tauto
  rw [h]

/-- Everything has landed when all parts were kept. -/
theorem landed_of_kept (h : ∀ i, kept i) : landed part kept n = Finset.range n :=
  Finset.filter_true_of_mem fun _ _ i _ => h i

/-- Blocks that are put into a new part have not landed. -/
theorem landed_fill {k : ι} {m : Nat} (hpart : part' k = Finset.Ico n (n + m)) (hkept : ¬ kept' k)
    (hempty : part k = ∅) (hother : ∀ i, i ≠ k → part' i = part i ∧ (kept' i ↔ kept i)) :
    landed part' kept' (n + m) = landed part kept n := by
  ext a
  rw [mem_landed, mem_landed]
  constructor
  · rintro ⟨ha, hall⟩
    have hlt : a < n := by
      by_contra hge
      exact hkept (hall k (hpart ▸ Finset.mem_Ico.mpr ⟨Nat.le_of_not_lt hge, ha⟩))
    refine ⟨hlt, fun i hi => ?_⟩
    by_cases hik : i = k
    · subst hik
      rw [hempty] at hi
      exact absurd hi (Finset.notMem_empty a)
    · obtain ⟨hsame, hiff⟩ := hother i hik
      exact hiff.mp (hall i (hsame ▸ hi))
  · rintro ⟨ha, hall⟩
    refine ⟨by omega, fun i hi => ?_⟩
    by_cases hik : i = k
    · subst hik
      rw [hpart, Finset.mem_Ico] at hi
      omega
    · obtain ⟨hsame, hiff⟩ := hother i hik
      exact hiff.mpr (hall i (hsame ▸ hi))

/-- The blocks of a part that was not kept have not landed. -/
theorem disjoint_landed {k : ι} (hkept : ¬ kept k) : Disjoint (landed part kept n) (part k) :=
  Finset.disjoint_left.mpr fun _ ha hk => hkept ((mem_landed.mp ha).2 k hk)

/-- They land when it is kept. -/
theorem landed_keep {k : ι} (hpart : part k ⊆ Finset.range n)
    (hdisjoint : ∀ i, i ≠ k → Disjoint (part k) (part i))
    (hkept : ∀ i, kept' i ↔ i = k ∨ kept i) :
    landed part kept' n = landed part kept n ∪ part k := by
  ext a
  rw [Finset.mem_union, mem_landed, mem_landed]
  simp only [hkept]
  constructor
  · rintro ⟨ha, hall⟩
    by_cases hk : a ∈ part k
    · exact .inr hk
    · refine .inl ⟨ha, fun i hi => (hall i hi).resolve_left ?_⟩
      rintro rfl
      exact hk hi
  · rintro (⟨ha, hall⟩ | hk)
    · exact ⟨ha, fun i hi => .inr (hall i hi)⟩
    · refine ⟨Finset.mem_range.mp (hpart hk), fun i hi => .inl ?_⟩
      by_contra hne
      exact Finset.disjoint_left.mp (hdisjoint i hne) hk hi

end InFlight
