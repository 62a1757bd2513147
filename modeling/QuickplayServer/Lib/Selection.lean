import Mathlib

/-!
# QuickplayServer.Lib.Selection

The members of a list that a predicate selects.

A member that is selected is at its `rank` in the selection.  To change a member
without changing whether it is selected is to change the selection there, or not
at all.
-/

namespace Selection

variable {α : Type*} {p : α → Bool} {f : α → α} {xs ys : List α} {i j : Nat} {x : α}

variable (p) in
/-- How many members before `i` are selected. -/
def rank (xs : List α) (i : Nat) : Nat := (xs.take i).countP p

theorem rank_length : rank p xs xs.length = (xs.filter p).length := by
  rw [rank, List.take_length, List.countP_eq_length_filter]

theorem rank_append (h : i ≤ xs.length) : rank p (xs ++ ys) i = rank p xs i := by
  rw [rank, List.take_append_of_le_length h, rank]

/-- The rank only depends on which members are selected. -/
theorem rank_congr (h : xs.map p = ys.map p) : rank p xs i = rank p ys i := by
  have hcount : ∀ zs : List α, rank p zs i = ((zs.map p).take i).countP id := by
    intro zs
    rw [← List.map_take, List.countP_map]
    rfl
  rw [hcount, hcount, h]

theorem map_modify (hf : ∀ x, p (f x) = p x) : (xs.modify j f).map p = xs.map p := by
  refine List.ext_getElem? fun i => ?_
  rw [List.getElem?_map, List.getElem?_map, List.getElem?_modify]
  cases xs[i]? with
  | none => rfl
  | some x =>
      split
      · exact congrArg some (hf x)
      · rfl

/-- A list around one of its members. -/
theorem exists_split (hx : xs[i]? = some x) :
    ∃ pre post, xs = pre ++ x :: post ∧ pre.length = i := by
  obtain ⟨hi, rfl⟩ := List.getElem?_eq_some_iff.mp hx
  refine ⟨xs.take i, xs.drop (i + 1), ?_, List.length_take_of_le hi.le⟩
  rw [← List.drop_eq_getElem_cons hi, List.take_append_drop]

theorem modify_split (pre post : List α) :
    (pre ++ x :: post).modify pre.length f = pre ++ f x :: post := by
  induction pre with
  | nil => rfl
  | cons y pre ih => exact congrArg (y :: ·) ih

theorem rank_split (pre post : List α) :
    rank p (pre ++ x :: post) pre.length = (pre.filter p).length := by
  rw [rank_append le_rfl, rank_length]

/-- A selected member is at its rank in the selection. -/
theorem getElem?_filter (hx : xs[i]? = some x) (hp : p x) :
    (xs.filter p)[rank p xs i]? = some x := by
  obtain ⟨pre, post, rfl, rfl⟩ := exists_split hx
  rw [rank_split, List.filter_append, List.filter_cons_of_pos hp,
    List.getElem?_append_right le_rfl, Nat.sub_self]
  rfl

theorem filter_modify_of_pos (hx : xs[i]? = some x) (hp : p x) (hf : p (f x) = p x) :
    (xs.modify i f).filter p = (xs.filter p).modify (rank p xs i) f := by
  obtain ⟨pre, post, rfl, rfl⟩ := exists_split hx
  rw [rank_split, modify_split, List.filter_append, List.filter_append, List.filter_cons_of_pos hp,
    List.filter_cons_of_pos (hf.trans hp), modify_split]

theorem filter_modify_of_neg (hx : xs[i]? = some x) (hp : ¬ p x) (hf : p (f x) = p x) :
    (xs.modify i f).filter p = xs.filter p := by
  obtain ⟨pre, post, rfl, rfl⟩ := exists_split hx
  rw [modify_split, List.filter_append, List.filter_append, List.filter_cons_of_neg hp,
    List.filter_cons_of_neg (hf ▸ hp)]

end Selection
