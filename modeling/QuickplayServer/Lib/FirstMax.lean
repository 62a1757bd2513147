import Mathlib

/-!
# QuickplayServer.Lib.FirstMax

The first element of a list whose value is maximal.

`List.argmax` finds it by a loop that keeps the best element so far and
replaces it only by a better one.  `FirstMax` says where in the list it is, and
`firstMax_filterMap` where in the list that the elements were computed from.
-/

variable {α β γ : Type} [LinearOrder γ] {f : β → γ}

/-- `m` is in `l`, everything before it has a smaller value and nothing behind
it has a larger one. -/
def FirstMax (f : β → γ) (m : β) (l : List β) : Prop :=
  ∃ pre post, l = pre ++ m :: post ∧ (∀ a ∈ pre, f a < f m) ∧ ∀ a ∈ post, f a ≤ f m

theorem FirstMax.mem {m : β} {l : List β} (h : FirstMax f m l) : m ∈ l := by
  obtain ⟨pre, post, rfl, -, -⟩ := h
  simp

/-- There is only one. -/
theorem FirstMax.unique {m n : β} {l : List β} (hm : FirstMax f m l) (hn : FirstMax f n l) :
    m = n := by
  obtain ⟨pre, post, rfl, hpre, hpost⟩ := hm
  obtain ⟨pre', post', heq, hpre', hpost'⟩ := hn
  rw [List.append_eq_append_iff] at heq
  obtain ⟨mid, rfl, hmid⟩ | ⟨mid, rfl, hmid⟩ := heq
  · cases mid with
    | nil => exact (List.cons.inj hmid).1
    | cons a mid =>
        obtain ⟨rfl, rfl⟩ := List.cons.inj hmid
        have hlt := hpre' m (by simp)
        exact absurd (hpost n (by simp)) (not_le.mpr hlt)
  · cases mid with
    | nil => exact (List.cons.inj hmid).1.symm
    | cons a mid =>
        obtain ⟨rfl, rfl⟩ := List.cons.inj hmid
        have hlt := hpre n (by simp)
        exact absurd (hpost' m (by simp)) (not_le.mpr hlt)

theorem firstMax_of_argmax {m : β} {l : List β} (h : l.argmax f = some m) : FirstMax f m l := by
  induction l using List.reverseRecOn generalizing m with
  | nil => cases h
  | append_singleton l a ih =>
      rw [List.argmax_concat] at h
      cases hl : l.argmax f with
      | none =>
          obtain rfl := List.argmax_eq_none.mp hl
          rw [hl] at h
          obtain rfl := Option.some.inj h
          exact ⟨[], [], rfl, by simp, by simp⟩
      | some c =>
          rw [hl] at h
          obtain ⟨pre, post, rfl, hpre, hpost⟩ := ih hl
          dsimp only at h
          split at h
          case isTrue hlt =>
            obtain rfl := Option.some.inj h
            refine ⟨pre ++ c :: post, [], rfl, fun b hb => ?_, by simp⟩
            rw [List.mem_append, List.mem_cons] at hb
            obtain hb | rfl | hb := hb
            · exact (hpre b hb).trans hlt
            · exact hlt
            · exact (hpost b hb).trans_lt hlt
          case isFalse hle =>
            obtain rfl := Option.some.inj h
            refine ⟨pre, post ++ [a], by simp, hpre, fun b hb => ?_⟩
            rw [List.mem_append, List.mem_singleton] at hb
            obtain hb | rfl := hb
            · exact hpost b hb
            · exact not_lt.mp hle

theorem argmax_eq_some_iff_firstMax {m : β} {l : List β} :
    l.argmax f = some m ↔ FirstMax f m l := by
  constructor
  · exact firstMax_of_argmax
  · intro h
    cases hl : l.argmax f with
    | none =>
        obtain rfl := List.argmax_eq_none.mp hl
        exact absurd h.mem (by simp)
    | some n => rw [(firstMax_of_argmax hl).unique h]

/-- The first maximum among what was computed from a list, and what it was
computed from. -/
theorem firstMax_filterMap {pick : α → Option β} {m : β} {l : List α} :
    FirstMax f m (l.filterMap pick) ↔ ∃ pre a post, l = pre ++ a :: post ∧ pick a = some m ∧
      (∀ b ∈ pre, ∀ n ∈ pick b, f n < f m) ∧ ∀ b ∈ post, ∀ n ∈ pick b, f n ≤ f m := by
  have hall : ∀ {P : β → Prop} {l : List α}, (∀ n ∈ l.filterMap pick, P n) ↔
      ∀ b ∈ l, ∀ n ∈ pick b, P n := by
    intro P l
    simp only [List.mem_filterMap, forall_exists_index, and_imp, Option.mem_def]
    exact ⟨fun h b hb n hn => h n b hb hn, fun h n b hb hn => h b hb n hn⟩
  constructor
  · rintro ⟨pre, post, heq, hpre, hpost⟩
    obtain ⟨l₁, l₂, rfl, rfl, hrest⟩ := List.filterMap_eq_append_iff.mp heq
    obtain ⟨l₃, a, l₄, rfl, hnone, ha, rfl⟩ := List.filterMap_eq_cons_iff.mp hrest
    refine ⟨l₁ ++ l₃, a, l₄, by simp, ha, fun b hb n hn => ?_, hall.mp hpost⟩
    rw [List.mem_append] at hb
    obtain hb | hb := hb
    · exact hall.mp hpre b hb n hn
    · rw [hnone b hb] at hn
      cases hn
  · rintro ⟨pre, a, post, rfl, ha, hpre, hpost⟩
    refine ⟨pre.filterMap pick, post.filterMap pick, ?_, hall.mpr hpre, hall.mpr hpost⟩
    rw [List.filterMap_append, List.filterMap_cons, ha]
