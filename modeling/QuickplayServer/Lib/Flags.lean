import Mathlib

/-!
# QuickplayServer.Lib.Flags

Sets of flags as bit vectors.

`a.Contains b` says that every flag of `b` is set in `a`; `a &&& b = 0` says
that none is.  Both are monotone, and both are read off flag by flag when the
flags of `b` are known.
-/

namespace BitVec

variable {w : Nat} {a a' b b' c : BitVec w}

/-- All flags of `b` are set in `a`. -/
def Contains (a b : BitVec w) : Prop := a &&& b = b

instance : Decidable (Contains a b) := inferInstanceAs (Decidable (_ = _))

theorem contains_iff : a.Contains b ↔ ∀ i, b.getLsbD i = true → a.getLsbD i = true := by
  unfold Contains
  constructor
  · intro h i hi
    rw [← h, getLsbD_and, Bool.and_eq_true] at hi
    exact hi.1
  · intro h
    apply eq_of_getLsbD_eq
    intro i _
    have hbit := h i
    rw [getLsbD_and]
    grind

theorem and_eq_zero_iff : a &&& b = 0 ↔ ∀ i, b.getLsbD i = true → a.getLsbD i = false := by
  constructor
  · intro h i hi
    have hbit := congrArg (getLsbD · i) h
    simpa [hi] using hbit
  · intro h
    apply eq_of_getLsbD_eq
    intro i _
    have hbit := h i
    rw [getLsbD_and, ofNat_eq_ofNat, getLsbD_zero]
    grind

@[simp] theorem contains_zero : a.Contains 0 := by
  rw [contains_iff]
  simp

theorem Contains.refl : a.Contains a := and_self

theorem Contains.trans (h : a.Contains b) (h' : b.Contains c) : a.Contains c := by
  rw [contains_iff] at h h' ⊢
  exact fun i hi => h i (h' i hi)

theorem Contains.or (h : a.Contains b) (h' : a'.Contains b') : (a ||| a').Contains (b ||| b') := by
  rw [contains_iff] at h h' ⊢
  intro i hi
  rw [getLsbD_or, Bool.or_eq_true] at hi ⊢
  exact hi.imp (h i) (h' i)

/-- A set without the flags of `b` is without the flags of a part of `b`. -/
theorem Contains.and_eq_zero (h : b.Contains c) (hzero : a &&& b = 0) : a &&& c = 0 := by
  rw [contains_iff] at h
  rw [and_eq_zero_iff] at hzero ⊢
  exact fun i hi => hzero i (h i hi)

/-! ## Single flags -/

/-- The set of one flag. -/
theorem contains_twoPow {i : Nat} (hi : i < w) : a.Contains (twoPow w i) ↔ a.getLsbD i = true := by
  rw [contains_iff]
  constructor
  · intro h
    exact h i (by simp [hi])
  · intro h j hj
    rw [getLsbD_twoPow, Bool.and_eq_true, decide_eq_true_eq, decide_eq_true_eq] at hj
    exact hj.2 ▸ h

theorem or_contains_twoPow {i : Nat} (hi : i < w) :
    (a ||| b).Contains (twoPow w i) ↔ a.Contains (twoPow w i) ∨ b.Contains (twoPow w i) := by
  rw [contains_twoPow hi, contains_twoPow hi, contains_twoPow hi, getLsbD_or, Bool.or_eq_true]

/-- A set of named flags, read flag by flag. -/
theorem contains_iff_forall {flags : List Nat} (hflags : ∀ i ∈ flags, i < w)
    (hb : ∀ i, b.getLsbD i = true → i ∈ flags) :
    a.Contains b ↔ ∀ i ∈ flags, b.Contains (twoPow w i) → a.Contains (twoPow w i) := by
  rw [contains_iff]
  constructor
  · intro h i hi
    rw [contains_twoPow (hflags i hi), contains_twoPow (hflags i hi)]
    exact h i
  · intro h i hi
    have hmem := hb i hi
    have hbit := h i hmem
    rw [contains_twoPow (hflags i hmem), contains_twoPow (hflags i hmem)] at hbit
    exact hbit hi

theorem and_eq_zero_iff_forall {flags : List Nat} (hflags : ∀ i ∈ flags, i < w)
    (hb : ∀ i, b.getLsbD i = true → i ∈ flags) :
    a &&& b = 0 ↔ ∀ i ∈ flags, b.Contains (twoPow w i) → ¬ a.Contains (twoPow w i) := by
  rw [and_eq_zero_iff]
  constructor
  · intro h i hi
    rw [contains_twoPow (hflags i hi), contains_twoPow (hflags i hi), Bool.not_eq_true]
    exact h i
  · intro h i hi
    have hmem := hb i hi
    have hbit := h i hmem
    rw [contains_twoPow (hflags i hmem), contains_twoPow (hflags i hmem), Bool.not_eq_true] at hbit
    exact hbit hi

end BitVec
