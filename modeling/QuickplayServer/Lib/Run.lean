import Mathlib

/-!
# QuickplayServer.Lib.Run

Runs of a system given by a partial step function.

A step that the system refuses ends the run.  `Run.induction` is the invariant
rule; `Always` and `EachStep` speak about the states of a run and about its
steps, and `always_iff_eachStep` turns a property of all states into the
condition on the steps that keeps it.
-/

variable {σ ι : Type}

namespace Run

/-- The state after the steps; `none` if one of them is refused. -/
def run (step : σ → ι → Option σ) (s : σ) (is : List ι) : Option σ := is.foldlM step s

variable {step : σ → ι → Option σ}

@[simp] theorem run_nil (s : σ) : run step s [] = some s := rfl

theorem run_cons_eq_some {s s' : σ} {i : ι} {is : List ι} :
    run step s (i :: is) = some s' ↔ ∃ t, step s i = some t ∧ run step t is = some s' := by
  simp [run, List.foldlM_cons, Option.bind_eq_some_iff]

/-- A system with more state, whose steps are those of this one. -/
theorem run_map {τ : Type} {step' : τ → ι → Option τ} {f : τ → σ}
    (hstep : ∀ t i, (step' t i).map f = step (f t) i) (t : τ) (is : List ι) :
    (run step' t is).map f = run step (f t) is := by
  induction is generalizing t with
  | nil => rfl
  | cons i is ih =>
      have hi := hstep t i
      rw [run, run, List.foldlM_cons, List.foldlM_cons, ← hi]
      cases step' t i with
      | none => rfl
      | some t' => exact ih t'

/-- What every step that is `ok` keeps, every run of such steps keeps. -/
theorem induction_of {I : σ → Prop} {ok : ι → Prop}
    (hstep : ∀ s i t, I s → ok i → step s i = some t → I t) {s s' : σ} {is : List ι} (hs : I s)
    (his : ∀ i ∈ is, ok i) (hrun : run step s is = some s') : I s' := by
  induction is generalizing s with
  | nil =>
      obtain rfl := Option.some.inj hrun
      exact hs
  | cons i is ih =>
      obtain ⟨t, hi, hrest⟩ := run_cons_eq_some.mp hrun
      exact ih (hstep s i t hs (his i List.mem_cons_self) hi)
        (fun j hj => his j (List.mem_cons_of_mem i hj)) hrest

/-- What every step keeps, every run keeps. -/
theorem induction {I : σ → Prop} (hstep : ∀ s i t, I s → step s i = some t → I t) {s s' : σ}
    {is : List ι} (hs : I s) (hrun : run step s is = some s') : I s' := by
  have hok : ∀ s i t, I s → True → step s i = some t → I t := fun s i t hs _ => hstep s i t hs
  exact induction_of hok hs (fun _ _ => trivial) hrun

theorem run_append_eq_some {s s' : σ} {is js : List ι} :
    run step s (is ++ js) = some s' ↔ ∃ t, run step s is = some t ∧ run step t js = some s' := by
  simp [run, List.foldlM_append, Option.bind_eq_some_iff]

/-- What every step keeps of the state and the steps taken so far. -/
theorem history_induction {I : List ι → σ → Prop} {s : σ}
    (hstep : ∀ is t i u, run step s is = some t → I is t → step t i = some u → I (is ++ [i]) u)
    (hs : I [] s) {s' : σ} {is : List ι} (hrun : run step s is = some s') : I is s' := by
  induction is using List.reverseRecOn generalizing s' with
  | nil =>
      obtain rfl := Option.some.inj hrun
      exact hs
  | append_singleton is i ih =>
      obtain ⟨t, ht, hi⟩ := run_append_eq_some.mp hrun
      obtain ⟨u, hu, hnil⟩ := run_cons_eq_some.mp hi
      obtain rfl := Option.some.inj hnil
      exact hstep is t i u ht (ih ht) hu

/-- One step or none. -/
theorem run_toList {s t : σ} {i : Option ι} (hsome : ∀ j, i = some j → step s j = some t)
    (hnone : i = none → t = s) : run step s i.toList = some t := by
  cases i with
  | none => rw [hnone rfl, Option.toList_none, run_nil]
  | some j => exact run_cons_eq_some.mpr ⟨t, hsome j rfl, rfl⟩

/-- The steps of a run as another system takes them: `view` says which step it
takes for each, if it takes one. -/
def project {κ : Type} (step : σ → ι → Option σ) (view : σ → ι → Option κ) : σ → List ι → List κ
  | _, [] => []
  | s, i :: is =>
      (view s i).toList ++
        match step s i with
        | some t => project step view t is
        | none => []

/-- A system whose every step is a step of another one, or none at all. -/
theorem run_project {τ κ : Type} {step' : τ → κ → Option τ} {view : σ → ι → Option κ} {f : σ → τ}
    {I : σ → Prop} (hI : ∀ s i t, I s → step s i = some t → I t)
    (hview : ∀ s i t, I s → step s i = some t →
      run step' (f s) (view s i).toList = some (f t)) {s s' : σ} {is : List ι} (hs : I s)
    (hrun : run step s is = some s') :
    run step' (f s) (project step view s is) = some (f s') := by
  induction is generalizing s with
  | nil =>
      obtain rfl := Option.some.inj hrun
      rfl
  | cons i is ih =>
      obtain ⟨t, hi, hrest⟩ := run_cons_eq_some.mp hrun
      have htail := ih (hI s i t hs hi) hrest
      rw [project, hi]
      exact run_append_eq_some.mpr ⟨f t, hview s i t hs hi, htail⟩

/-- The state after `n` times the same step; `none` if it is refused. -/
def iterate (next : σ → Option σ) : Nat → σ → Option σ
  | 0, s => some s
  | n + 1, s => (next s).bind (iterate next n)

/-- A step that is not refused and makes the measure smaller is done in the end. -/
theorem exists_iterate {next : σ → Option σ} {I : σ → Prop} (done : σ → Prop) (measure : σ → Nat)
    (hnext : ∀ s, I s → ¬ done s → ∃ t, next s = some t ∧ I t ∧ measure t < measure s) {s : σ}
    (hs : I s) : ∃ n ≤ measure s, ∃ t, iterate next n s = some t ∧ I t ∧ done t := by
  generalize hm : measure s = m
  induction m using Nat.strong_induction_on generalizing s with
  | h m ih =>
      by_cases hdone : done s
      · exact ⟨0, Nat.zero_le _, s, rfl, hs, hdone⟩
      · obtain ⟨t, ht, hI, hlt⟩ := hnext s hs hdone
        obtain ⟨n, hn, u, hu, hIu, hdoneu⟩ := ih (measure t) (hm ▸ hlt) hI rfl
        refine ⟨n + 1, by omega, u, ?_, hIu, hdoneu⟩
        rw [iterate, ht, Option.bind_some]
        exact hu

/-- `P` holds in the first state and after every step. -/
def Always (step : σ → ι → Option σ) (s : σ) (is : List ι) (P : σ → Prop) : Prop :=
  ∀ pre t, pre <+: is → run step s pre = some t → P t

/-- Every step meets `Q` in the state that it is taken in. -/
def EachStep (step : σ → ι → Option σ) (s : σ) (is : List ι) (Q : σ → ι → Prop) : Prop :=
  ∀ pre i t, pre ++ [i] <+: is → run step s pre = some t → Q t i

variable {P : σ → Prop} {Q : σ → ι → Prop} {s t : σ} {i : ι} {is : List ι}

theorem always_nil : Always step s [] P ↔ P s := by
  constructor
  · exact fun h => h [] s (List.prefix_refl _) rfl
  · intro h pre t hpre hrun
    obtain rfl := List.prefix_nil.mp hpre
    obtain rfl := Option.some.inj hrun
    exact h

theorem always_cons (hi : step s i = some t) :
    Always step s (i :: is) P ↔ P s ∧ Always step t is P := by
  constructor
  · refine fun h => ⟨h [] s (List.nil_prefix) rfl, fun pre u hpre hrun => ?_⟩
    exact h (i :: pre) u (by simpa using hpre) (run_cons_eq_some.mpr ⟨t, hi, hrun⟩)
  · rintro ⟨hs, h⟩ pre u hpre hrun
    cases pre with
    | nil =>
        obtain rfl := Option.some.inj hrun
        exact hs
    | cons j pre =>
        obtain ⟨rfl, htail⟩ := List.cons_prefix_cons.mp hpre
        obtain ⟨t', hj, hrun⟩ := run_cons_eq_some.mp hrun
        obtain rfl := Option.some.inj (hi.symm.trans hj)
        exact h pre u htail hrun

theorem eachStep_nil : EachStep step s [] Q := by
  intro pre i t hpre
  simp at hpre

theorem eachStep_cons (hi : step s i = some t) :
    EachStep step s (i :: is) Q ↔ Q s i ∧ EachStep step t is Q := by
  constructor
  · refine fun h => ⟨h [] i s (by simp) rfl, fun pre j u hpre hrun => ?_⟩
    exact h (i :: pre) j u (by simpa using hpre) (run_cons_eq_some.mpr ⟨t, hi, hrun⟩)
  · rintro ⟨hs, h⟩ pre j u hpre hrun
    cases pre with
    | nil =>
        obtain rfl := Option.some.inj hrun
        obtain ⟨rfl, -⟩ := List.cons_prefix_cons.mp hpre
        exact hs
    | cons k pre =>
        obtain ⟨rfl, htail⟩ := List.cons_prefix_cons.mp hpre
        obtain ⟨t', hk, hrun⟩ := run_cons_eq_some.mp hrun
        obtain rfl := Option.some.inj (hi.symm.trans hk)
        exact h pre j u htail hrun

/-- What every step keeps that meets `Q` where it is taken, a run of such steps keeps. -/
theorem induction_eachStep {I : σ → Prop} {ok : ι → Prop}
    (hstep : ∀ s i t, I s → ok i → Q s i → step s i = some t → I t) {s' : σ} (hs : I s)
    (his : ∀ i ∈ is, ok i) (hQ : EachStep step s is Q) (hrun : run step s is = some s') : I s' := by
  induction is generalizing s with
  | nil =>
      obtain rfl := Option.some.inj hrun
      exact hs
  | cons i is ih =>
      obtain ⟨t, hi, hrest⟩ := run_cons_eq_some.mp hrun
      obtain ⟨hnow, hlater⟩ := (eachStep_cons hi).mp hQ
      obtain ⟨hok, his⟩ := List.forall_mem_cons.mp his
      exact ih (hstep s i t hs hok hnow hi) his hlater hrest

/-- Two conditions on the steps that agree wherever the invariant `I` holds. -/
theorem eachStep_congr {I : σ → Prop} {Q' : σ → ι → Prop}
    (hI : ∀ s i t, I s → step s i = some t → I t) (hQ : ∀ s i, I s → (Q s i ↔ Q' s i)) (hs : I s) :
    EachStep step s is Q ↔ EachStep step s is Q' := by
  refine forall₅_congr fun pre i t _ hrun => hQ t i ?_
  exact induction hI hs hrun

/-- `P` holds throughout a run exactly when every step meets `Q`, if meeting
`Q` is what keeps `P`.  The invariant `I` holds throughout in any case. -/
theorem always_iff_eachStep {I : σ → Prop} (hI : ∀ s i t, I s → step s i = some t → I t)
    (hPQ : ∀ s i t, I s → P s → step s i = some t → (P t ↔ Q s i)) {s' : σ} (his : I s) (hps : P s)
    (hrun : run step s is = some s') : Always step s is P ↔ EachStep step s is Q := by
  induction is generalizing s with
  | nil => exact iff_of_true (always_nil.mpr hps) eachStep_nil
  | cons i is ih =>
      obtain ⟨t, hi, hrest⟩ := run_cons_eq_some.mp hrun
      have hiff := hPQ s i t his hps hi
      rw [always_cons hi, eachStep_cons hi]
      by_cases ht : P t
      · rw [ih (hI s i t his hi) ht hrest]
        exact ⟨fun h => ⟨hiff.mp ht, h.2⟩, fun h => ⟨hps, h.2⟩⟩
      · have hstart : ¬ Always step t is P := fun h => ht (h [] t List.nil_prefix rfl)
        exact iff_of_false (fun h => hstart h.2) fun h => ht (hiff.mpr h.1)

end Run
