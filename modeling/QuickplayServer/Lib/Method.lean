import Mathlib

/-!
# QuickplayServer.Lib.Method

Fallible code that mutates a state.

A call ends in one of three ways (`Outcome`): it returns a value, it returns
an error, or it panics (a failed assertion, or checked arithmetic that leaves
its range).  A `Method` is code over `&mut self`: an early return with an
error keeps what has been written to the state so far, so the state is paired
with every outcome.

`Triple` is the Hoare triple of such a method.  It says nothing about a call
that panics; `Keeps` is the triple of an invariant that survives both ways
of returning.
-/

variable {σ ε α β ι : Type}

/-! ## Outcomes -/

/-- How a call of fallible code ends. -/
inductive Outcome (ε α : Type) where
  | ok (a : α)
  | err (e : ε)
  | panic
  deriving DecidableEq, Repr

namespace Outcome

/-- Go on with the value, or leave early with the error or the panic. -/
protected def bind (x : Outcome ε α) (f : α → Outcome ε β) : Outcome ε β :=
  match x with
  | .ok a => f a
  | .err e => .err e
  | .panic => .panic

instance : Monad (Outcome ε) where
  pure := .ok
  bind := Outcome.bind

@[simp] theorem pure_eq (a : α) : (pure a : Outcome ε α) = .ok a := rfl
@[simp] theorem ok_bind (a : α) (f : α → Outcome ε β) : (Outcome.ok a >>= f) = f a := rfl
@[simp] theorem err_bind (e : ε) (f : α → Outcome ε β) : (Outcome.err e >>= f) = .err e := rfl
@[simp] theorem panic_bind (f : α → Outcome ε β) : (Outcome.panic >>= f) = .panic := rfl

/-- A sequence returns exactly when both of its parts do. -/
theorem bind_eq_ok {x : Outcome ε α} {f : α → Outcome ε β} {b : β} :
    (x >>= f) = .ok b ↔ ∃ a, x = .ok a ∧ f a = .ok b := by
  cases x <;> simp

/-- A sequence fails exactly when its first part does or its second does. -/
theorem bind_eq_err {x : Outcome ε α} {f : α → Outcome ε β} {e : ε} :
    (x >>= f) = .err e ↔ x = .err e ∨ ∃ a, x = .ok a ∧ f a = .err e := by
  cases x <;> simp

/-- `opt.ok_or(e)`. -/
def ofOption (e : ε) : Option α → Outcome ε α
  | some a => .ok a
  | none => .err e

@[simp] theorem ofOption_some (e : ε) (a : α) : ofOption e (some a) = .ok a := rfl
@[simp] theorem ofOption_none (e : ε) : ofOption e (none : Option α) = .err e := rfl

/-- An optional value with an error for `none` is returned exactly if it is there. -/
theorem ofOption_eq_ok {e : ε} {x : Option α} {a : α} : ofOption e x = .ok a ↔ x = some a := by
  cases x <;> simp

/-- An optional value with an error for `none` never panics. -/
theorem ofOption_ne_panic (e : ε) (x : Option α) : ofOption e x ≠ .panic := by
  cases x <;> simp

/-- Two computations that begin alike, the first of which goes on with `k` in the end. -/
theorem bind_eq_bind_bind {x : Outcome ε α} {f : α → Outcome ε γ} {g : α → Outcome ε β}
    {k : β → Outcome ε γ} (h : ∀ a, x = .ok a → f a = g a >>= k) : (x >>= f) = (x >>= g) >>= k := by
  cases x with
  | ok a => exact h a rfl
  | err e => rfl
  | panic => rfl

/-- A sequence does not panic when no part of it does. -/
theorem bind_ne_panic {x : Outcome ε α} {f : α → Outcome ε β} (hx : x ≠ .panic)
    (hf : ∀ a, x = .ok a → f a ≠ .panic) : (x >>= f) ≠ .panic := by
  cases x with
  | ok a => exact hf a rfl
  | err e => simp
  | panic => exact absurd rfl hx

/-- `assert!(p)`. -/
def assert (p : Prop) [Decidable p] : Outcome ε Unit := if p then .ok () else .panic

@[simp] theorem assert_of (p : Prop) {_ : Decidable p} (h : p) :
    (assert p : Outcome ε Unit) = .ok () :=
  if_pos h

@[simp] theorem assert_true : (assert True : Outcome ε Unit) = .ok () := rfl

@[simp] theorem assert_of_not (p : Prop) {_ : Decidable p} (h : ¬ p) :
    (assert p : Outcome ε Unit) = .panic :=
  if_neg h

/-- Code goes on behind an assertion exactly if it holds. -/
theorem assert_eq_ok {p : Prop} [Decidable p] {u : Unit} :
    (assert p : Outcome ε Unit) = .ok u ↔ p := by
  unfold assert
  split
  case isTrue hp => exact iff_of_true rfl hp
  case isFalse hp => exact iff_of_false nofun hp

/-- An assertion that holds does not panic. -/
theorem assert_ne_panic {p : Prop} {_ : Decidable p} (h : p) :
    (assert p : Outcome ε Unit) ≠ .panic := by
  rw [assert_of p h]
  nofun

/-- An assertion that fails panics; it never returns an error. -/
theorem assert_ne_err (p : Prop) [Decidable p] (e : ε) : (assert p : Outcome ε Unit) ≠ .err e := by
  unfold assert
  split <;> simp

/-! ### checked arithmetic -/

/-- `a + b` on `u32`; overflow panics. -/
def add32 (a b : Nat) : Outcome ε Nat := if a + b < 2 ^ 32 then .ok (a + b) else .panic

/-- `a - b` on an unsigned type; underflow panics. -/
def checkedSub (a b : Nat) : Outcome ε Nat := if b ≤ a then .ok (a - b) else .panic

/-- `a * b` on `u32`; overflow panics. -/
def mul32 (a b : Nat) : Outcome ε Nat := if a * b < 2 ^ 32 then .ok (a * b) else .panic

/-- A sum in range is exact. -/
@[simp] theorem add32_of_lt {a b : Nat} (h : a + b < 2 ^ 32) :
    (add32 a b : Outcome ε Nat) = .ok (a + b) := if_pos h

/-- A difference that is not negative is exact. -/
@[simp] theorem checkedSub_of_le {a b : Nat} (h : b ≤ a) :
    (checkedSub a b : Outcome ε Nat) = .ok (a - b) :=
  if_pos h

/-- A product in range is exact. -/
@[simp] theorem mul32_of_lt {a b : Nat} (h : a * b < 2 ^ 32) :
    (mul32 a b : Outcome ε Nat) = .ok (a * b) := if_pos h

/-- A sum is returned exactly if it is in range. -/
theorem add32_eq_ok {a b c : Nat} :
    (add32 a b : Outcome ε Nat) = .ok c ↔ a + b < 2 ^ 32 ∧ c = a + b := by
  unfold add32; split <;> simp_all [eq_comm]

/-- A product is returned exactly if it is in range. -/
theorem mul32_eq_ok {a b c : Nat} :
    (mul32 a b : Outcome ε Nat) = .ok c ↔ a * b < 2 ^ 32 ∧ c = a * b := by
  unfold mul32; split <;> simp_all [eq_comm]

/-- The call panicked. -/
def isPanic : Outcome ε α → Bool
  | .panic => true
  | _ => false

/-- The test for a panic is decided by the outcome. -/
theorem isPanic_eq_false {x : Outcome ε α} : x.isPanic = false ↔ x ≠ .panic := by
  cases x <;> simp [isPanic]

/-! ### which errors a call returns -/

/-- The error of the call, if it returns one, is in `E`. -/
def FailsIn (E : ε → Prop) (x : Outcome ε α) : Prop := ∀ e, x = .err e → E e

namespace FailsIn

variable {E : ε → Prop}

@[simp] theorem ok (a : α) : FailsIn E (Outcome.ok a) := nofun

/-- Returning a value does not fail. -/
theorem pure (a : α) : FailsIn E (Pure.pure a : Outcome ε α) := nofun

@[simp] theorem panic : FailsIn E (Outcome.panic : Outcome ε α) := nofun

/-- An error of the kind is one of the kind. -/
theorem err {e : ε} (h : E e) : FailsIn E (Outcome.err e : Outcome ε α) := by
  rintro _ ⟨⟩
  exact h

/-- A sequence fails as its first part does, or as what comes behind it does for the
value that it returns. -/
theorem bind {x : Outcome ε α} {f : α → Outcome ε β} (hx : FailsIn E x)
    (hf : ∀ a, FailsIn E (f a)) :
    FailsIn E (x >>= f) := by
  cases x with
  | ok a => exact hf a
  | err e => exact err (hx e rfl)
  | panic => exact panic

/-- A choice fails as its branches do. -/
theorem ite {c : Prop} [Decidable c] {x y : Outcome ε α} (hx : FailsIn E x) (hy : FailsIn E y) :
    FailsIn E (if c then x else y) := by
  split <;> assumption

/-- A missing value fails with the error that is given for it. -/
theorem ofOption {e : ε} (h : E e) (x : Option α) : FailsIn E (Outcome.ofOption e x) := by
  cases x with
  | none => exact err h
  | some a => exact ok a

/-- Assertions have no errors, so they fail in every way that is asked for. -/
theorem assert (p : Prop) [Decidable p] : FailsIn E (Outcome.assert p : Outcome ε Unit) :=
  fun e h => absurd h (assert_ne_err p e)

/-- The checked operations panic and have no errors. -/
theorem add32 (a b : Nat) : FailsIn E (Outcome.add32 a b : Outcome ε Nat) := ite (ok _) panic

theorem checkedSub (a b : Nat) : FailsIn E (Outcome.checkedSub a b : Outcome ε Nat) :=
  ite (ok _) panic

theorem mul32 (a b : Nat) : FailsIn E (Outcome.mul32 a b : Outcome ε Nat) := ite (ok _) panic

end FailsIn

end Outcome

/-! ## Methods -/

/-- Fallible code over `&mut self`. -/
def Method (σ ε α : Type) : Type := σ → Outcome ε α × σ

namespace Method

/-- Go on with the value in the state left behind, or leave early in that state. -/
protected def bind (m : Method σ ε α) (f : α → Method σ ε β) : Method σ ε β := fun s =>
  match m s with
  | (.ok a, s') => f a s'
  | (.err e, s') => (.err e, s')
  | (.panic, s') => (.panic, s')

instance : Monad (Method σ ε) where
  pure a := fun s => (.ok a, s)
  bind := Method.bind

instance : MonadStateOf σ (Method σ ε) where
  get := fun s => (.ok s, s)
  set s' := fun _ => (.ok (), s')
  modifyGet f := fun s => (.ok (f s).1, (f s).2)

instance : MonadLift (Outcome ε) (Method σ ε) where
  monadLift x := fun s => (x, s)

/-- `return Err(e)`. -/
def fail (e : ε) : Method σ ε α := fun s => (.err e, s)

/-- `if let Err(err) = m { .. }`: goes on after an error. -/
def attempt (m : Method σ ε α) : Method σ ε (Option α) := fun s =>
  match m s with
  | (.ok a, s') => (.ok (some a), s')
  | (.err _, s') => (.ok none, s')
  | (.panic, s') => (.panic, s')

@[simp] theorem pure_apply (a : α) (s : σ) : (pure a : Method σ ε α) s = (.ok a, s) := rfl
@[simp] theorem get_apply (s : σ) : (get : Method σ ε σ) s = (.ok s, s) := rfl
@[simp] theorem set_apply (s s' : σ) : (set s' : Method σ ε PUnit) s = (.ok (), s') := rfl
@[simp] theorem modify_apply (f : σ → σ) (s : σ) :
    (modify f : Method σ ε PUnit) s = (.ok (), f s) := rfl
@[simp] theorem fail_apply (e : ε) (s : σ) : (fail e : Method σ ε α) s = (.err e, s) := rfl
@[simp] theorem lift_apply (x : Outcome ε α) (s : σ) : (liftM x : Method σ ε α) s = (x, s) := rfl

/-- A sequence runs its first part, and goes on in the state that this leaves if it
returns a value. -/
theorem bind_apply (m : Method σ ε α) (f : α → Method σ ε β) (s : σ) :
    (m >>= f) s = match m s with
      | (.ok a, s') => f a s'
      | (.err e, s') => (.err e, s')
      | (.panic, s') => (.panic, s') := rfl

/-- Code behind a call that returned goes on with its value, in the state that it
left. -/
theorem bind_ok {m : Method σ ε α} {f : α → Method σ ε β} {s s' : σ} {a : α}
    (h : m s = (.ok a, s')) : (m >>= f) s = f a s' := by
  rw [bind_apply, h]

/-- Code behind a call that failed is not run, and the state is the one that the
call left. -/
theorem bind_err {m : Method σ ε α} {f : α → Method σ ε β} {s s' : σ} {e : ε}
    (h : m s = (.err e, s')) : (m >>= f) s = (.err e, s') := by
  rw [bind_apply, h]

/-- Code behind a call that panicked is not run. -/
theorem bind_panic {m : Method σ ε α} {f : α → Method σ ε β} {s s' : σ}
    (h : m s = (.panic, s')) : (m >>= f) s = (.panic, s') := by
  rw [bind_apply, h]

/-- What only reads behind a method leaves the state that the method has left. -/
theorem bind_state {m : Method σ ε α} {f : α → Method σ ε β} (hf : ∀ a t, (f a t).2 = t) (s : σ) :
    ((m >>= f) s).2 = (m s).2 := by
  rw [bind_apply]
  obtain ⟨o, t⟩ := m s
  cases o with
  | ok a => exact hf a t
  | err e => rfl
  | panic => rfl

protected theorem bind_assoc (m : Method σ ε α) (f : α → Method σ ε β) (g : β → Method σ ε ι) :
    ((m >>= f) >>= g) = m >>= fun a => f a >>= g := by
  funext s
  rw [bind_apply, bind_apply, bind_apply]
  obtain ⟨o, s'⟩ := m s
  cases o <;> rfl

/-- A sequence returns exactly when both of its parts do. -/
theorem bind_eq_ok {m : Method σ ε α} {f : α → Method σ ε β} {s t : σ} {b : β} :
    (m >>= f) s = (.ok b, t) ↔ ∃ a s', m s = (.ok a, s') ∧ f a s' = (.ok b, t) := by
  rw [bind_apply]
  obtain ⟨o, s'⟩ := m s
  cases o with
  | ok a =>
      constructor
      · exact fun h => ⟨a, s', rfl, h⟩
      · rintro ⟨_, _, h, h'⟩
        cases h
        exact h'
  | err e => simp
  | panic => simp

/-- A sequence fails where its first part does, or where its second part does. -/
theorem bind_eq_err {m : Method σ ε α} {f : α → Method σ ε β} {s t : σ} {e : ε} :
    (m >>= f) s = (.err e, t) ↔
      m s = (.err e, t) ∨ ∃ a s', m s = (.ok a, s') ∧ f a s' = (.err e, t) := by
  rw [bind_apply]
  obtain ⟨o, s'⟩ := m s
  cases o with
  | ok a =>
      constructor
      · exact fun h => .inr ⟨a, s', rfl, h⟩
      · rintro (h | ⟨_, _, h, h'⟩)
        · cases h
        · cases h
          exact h'
  | err e => simp
  | panic => simp

/-- A pure call leaves the state alone, so what is behind it runs in the old one. -/
theorem lift_bind_eq_ok {x : Outcome ε α} {f : α → Method σ ε β} {s t : σ} {b : β} :
    ((liftM x : Method σ ε α) >>= f) s = (.ok b, t) ↔ ∃ a, x = .ok a ∧ f a s = (.ok b, t) := by
  rw [bind_eq_ok]
  constructor
  · rintro ⟨a, s', h, hf⟩
    obtain ⟨rfl, rfl⟩ := Prod.mk.inj h
    exact ⟨a, rfl, hf⟩
  · rintro ⟨a, rfl, hf⟩
    exact ⟨a, s, rfl, hf⟩

@[simp] theorem lift_bind_ok (a : α) (f : α → Method σ ε β) (s : σ) :
    ((liftM (Outcome.ok a : Outcome ε α) : Method σ ε α) >>= f) s = f a s := rfl
@[simp] theorem lift_bind_err (e : ε) (f : α → Method σ ε β) (s : σ) :
    ((liftM (Outcome.err e : Outcome ε α) : Method σ ε α) >>= f) s = (.err e, s) := rfl
@[simp] theorem lift_bind_panic (f : α → Method σ ε β) (s : σ) :
    ((liftM (Outcome.panic : Outcome ε α) : Method σ ε α) >>= f) s = (.panic, s) := rfl
@[simp] theorem get_bind (f : σ → Method σ ε β) (s : σ) :
    ((get : Method σ ε σ) >>= f) s = f s s := rfl
@[simp] theorem set_bind (s' : σ) (f : PUnit → Method σ ε β) (s : σ) :
    ((set s' : Method σ ε PUnit) >>= f) s = f () s' := rfl
@[simp] theorem modify_bind (g : σ → σ) (f : PUnit → Method σ ε β) (s : σ) :
    ((modify g : Method σ ε PUnit) >>= f) s = f () (g s) := rfl
@[simp] theorem fail_bind (e : ε) (f : α → Method σ ε β) (s : σ) :
    ((fail e : Method σ ε α) >>= f) s = (.err e, s) := rfl
@[simp] theorem pure_bind (a : α) (f : α → Method σ ε β) (s : σ) :
    ((pure a : Method σ ε α) >>= f) s = f a s := rfl

/-! ### code that does not look at the state -/

/-- Go on in the state `s` with the value of code that does not look at it. -/
def resume (x : Outcome ε α) (k : α → Outcome ε β × σ) (s : σ) : Outcome ε β × σ :=
  match x with
  | .ok a => k a
  | .err e => (.err e, s)
  | .panic => (.panic, s)

@[simp] theorem resume_ok (a : α) (k : α → Outcome ε β × σ) (s : σ) : resume (.ok a) k s = k a :=
  rfl
@[simp] theorem resume_err (e : ε) (k : α → Outcome ε β × σ) (s : σ) :
    resume (.err e) k s = (.err e, s) := rfl
@[simp] theorem resume_panic (k : α → Outcome ε β × σ) (s : σ) :
    resume .panic k s = (.panic, s) := rfl

/-- A method whose first part does not look at the state. -/
theorem lift_bind_resume {x : Outcome ε α} {f : α → Method σ ε β} {g : α → Outcome ε ι}
    {k : ι → Outcome ε β × σ} {s : σ} (h : ∀ a, f a s = resume (g a) k s) :
    ((liftM x : Method σ ε α) >>= f) s = resume (x >>= g) k s := by
  cases x with
  | ok a => exact h a
  | err e => rfl
  | panic => rfl

/-! ### loops over a list -/

@[simp] theorem forM_nil (f : ι → Method σ ε PUnit) (s : σ) :
    ([] : List ι).forM f s = (.ok (), s) := rfl

/-- A loop goes on after a round that returned, in the state that the round left. -/
theorem forM_cons_ok {f : ι → Method σ ε PUnit} {i : ι} {is : List ι} {s s' : σ}
    (h : f i s = (.ok (), s')) : (i :: is).forM f s = is.forM f s' := bind_ok h

/-- A loop ends with the first round that fails. -/
theorem forM_cons_err {f : ι → Method σ ε PUnit} {i : ι} {is : List ι} {s s' : σ} {e : ε}
    (h : f i s = (.err e, s')) : (i :: is).forM f s = (.err e, s') := bind_err h

/-- Loops with the same rounds over the same list are the same. -/
theorem forM_congr {f g : ι → Method σ ε PUnit} {is : List ι} (h : ∀ i ∈ is, f i = g i) :
    is.forM f = is.forM g := by
  rw [List.forM_eq_forM]
  induction is with
  | nil => rfl
  | cons i is ih =>
      obtain ⟨hi, his⟩ := List.forall_mem_cons.mp h
      rw [List.forM_cons, List.forM_cons, hi, ih his]

/-! ## Hoare triples -/

/-- From a state in `P` the method returns a value in `Q` or an error in `E`,
each together with the state it leaves behind, or it panics. -/
def Triple (P : σ → Prop) (m : Method σ ε α) (Q : α → σ → Prop) (E : ε → σ → Prop) : Prop :=
  ∀ s, P s → match m s with
    | (.ok a, s') => Q a s'
    | (.err e, s') => E e s'
    | (.panic, _) => True

namespace Triple

variable {P : σ → Prop} {m : Method σ ε α} {Q Q' : α → σ → Prop} {E E' : ε → σ → Prop}

/-- What a triple says about a call that returned. -/
theorem of_ok (h : Triple P m Q E) {s s' : σ} {a : α} (hs : P s) (hm : m s = (.ok a, s')) :
    Q a s' := by
  have := h s hs
  rwa [hm] at this

/-- What a triple says about a call that failed. -/
theorem of_err (h : Triple P m Q E) {s s' : σ} {e : ε} (hs : P s) (hm : m s = (.err e, s')) :
    E e s' := by
  have := h s hs
  rwa [hm] at this

/-- Nothing is said of the call. -/
theorem any (m : Method σ ε α) : Triple P m (fun _ _ => True) fun _ _ => True := by
  intro s _
  obtain ⟨o, s'⟩ := m s
  cases o <;> trivial

/-- The precondition can be strengthened and the two postconditions weakened. -/
theorem consequence {P' : σ → Prop} (h : Triple P m Q E) (hP : ∀ s, P' s → P s)
    (hQ : ∀ a s, Q a s → Q' a s) (hE : ∀ e s, E e s → E' e s) : Triple P' m Q' E' := by
  intro s hs
  have hm := h s (hP s hs)
  revert hm
  obtain ⟨o, s'⟩ := m s
  cases o with
  | ok a => exact hQ a s'
  | err e => exact hE e s'
  | panic => exact id

/-- The rule of sequences: what holds behind the first part is the precondition of
the second. -/
theorem bind {f : α → Method σ ε β} {R : β → σ → Prop} (hm : Triple P m Q E)
    (hf : ∀ a, Triple (Q a) (f a) R E) : Triple P (m >>= f) R E := by
  intro s hs
  have h := hm s hs
  rw [bind_apply]
  revert h
  obtain ⟨o, s'⟩ := m s
  cases o with
  | ok a => exact hf a s'
  | err e => exact id
  | panic => exact id

/-- Returning a value leaves the state, so the postcondition has to hold already. -/
theorem pure {a : α} (h : ∀ s, P s → Q a s) : Triple P (Pure.pure a : Method σ ε α) Q E := h

/-- Failing leaves the state, so the condition on failures has to hold already. -/
theorem fail {e : ε} (h : ∀ s, P s → E e s) : Triple P (Method.fail e : Method σ ε α) Q E := h

/-- Reading the state returns it. -/
theorem get {Q : σ → σ → Prop} (h : ∀ s, P s → Q s s) :
    Triple P (MonadState.get : Method σ ε σ) Q E := h

/-- Code that goes on with the state it finds. -/
theorem get_bind {f : σ → Method σ ε β} {R : β → σ → Prop}
    (h : ∀ s, P s → Triple (· = s) (f s) R E) : Triple P (MonadState.get >>= f) R E :=
  fun s hs => h s hs s rfl

/-- An update has to lead from the precondition to the postcondition. -/
theorem modify {f : σ → σ} {Q : PUnit → σ → Prop} (h : ∀ s, P s → Q () (f s)) :
    Triple P (modify f : Method σ ε PUnit) Q E := h

/-- Code that never touches the state. -/
theorem lift {x : Outcome ε α} (hok : ∀ a s, x = .ok a → P s → Q a s)
    (herr : ∀ e s, x = .err e → P s → E e s) : Triple P (liftM x : Method σ ε α) Q E := by
  intro s hs
  rw [lift_apply]
  cases x with
  | ok a => exact hok a s rfl hs
  | err e => exact herr e s rfl hs
  | panic => trivial

/-- Code that goes on with a value and never touches the state. -/
theorem lift_bind {x : Outcome ε α} {f : α → Method σ ε β} {R : β → σ → Prop}
    (hok : ∀ a, Triple P (f a) R E) (herr : ∀ e s, P s → E e s) :
    Triple P ((liftM x : Method σ ε α) >>= f) R E :=
  bind (lift (fun _ _ _ hs => hs) fun e s _ hs => herr e s hs) hok

/-- Code that never touches the state keeps what holds of it. -/
theorem lift_failsIn {F : ε → Prop} {x : Outcome ε α} (h : x.FailsIn F) :
    Triple P (liftM x : Method σ ε α) (fun _ => P) fun e s => P s ∧ F e :=
  lift (fun _ _ _ hs => hs) fun e _ he hs => ⟨hs, h e he⟩

/-- Each branch is run under the condition that chooses it. -/
theorem ite {c : Prop} [Decidable c] {m' : Method σ ε α}
    (h : Triple (fun s => P s ∧ c) m Q E) (h' : Triple (fun s => P s ∧ ¬ c) m' Q E) :
    Triple P (if c then m else m') Q E := by
  intro s hs
  by_cases hc : c
  · simp only [hc, if_true]
    exact h s ⟨hs, hc⟩
  · simp only [hc, if_false]
    exact h' s ⟨hs, hc⟩

/-- A loop over a list keeps what each of its rounds keeps. -/
theorem forM {I : σ → Prop} {f : ι → Method σ ε PUnit}
    (h : ∀ i, Triple I (f i) (fun _ => I) E) :
    (is : List ι) → Triple I (is.forM f) (fun _ => I) E
  | [] => pure fun _ => id
  | i :: is => bind (h i) fun _ => forM h is

end Triple

/-- The invariant `I` holds again when the method returns, with a value or an error. -/
def Keeps (I : σ → Prop) (m : Method σ ε α) : Prop := Triple I m (fun _ => I) (fun _ => I)

namespace Keeps

variable {I : σ → Prop}

/-- An invariant that is kept holds after every call that did not panic. -/
theorem run {m : Method σ ε α} (h : Keeps I m) {s : σ} (hs : I s) (hp : (m s).1 ≠ .panic) :
    I (m s).2 := by
  have hm := h s hs
  revert hm hp
  obtain ⟨o, s'⟩ := m s
  cases o with
  | ok a => exact fun _ => id
  | err e => exact fun _ => id
  | panic => exact fun hp => absurd rfl hp

/-- A sequence keeps an invariant that both of its parts keep. -/
theorem bind {m : Method σ ε α} {f : α → Method σ ε β} (hm : Keeps I m)
    (hf : ∀ a, Keeps I (f a)) : Keeps I (m >>= f) := Triple.bind hm hf

theorem pure (a : α) : Keeps I (Pure.pure a : Method σ ε α) := fun _ => id

theorem fail (e : ε) : Keeps I (Method.fail e : Method σ ε α) := fun _ => id

theorem get : Keeps I (MonadState.get : Method σ ε σ) := fun _ => id

/-- Pure code has no influence on the state. -/
theorem lift (x : Outcome ε α) : Keeps I (liftM x : Method σ ε α) :=
  Triple.lift (fun _ _ _ => id) (fun _ _ _ => id)

/-- An update keeps the invariants that it keeps by itself. -/
theorem modify {f : σ → σ} (h : ∀ s, I s → I (f s)) :
    Keeps I (modify f : Method σ ε PUnit) := h

/-- A choice keeps what both branches keep. -/
theorem ite {c : Prop} [Decidable c] {m m' : Method σ ε α} (h : Keeps I m) (h' : Keeps I m') :
    Keeps I (if c then m else m') := by
  split <;> assumption

/-- A loop keeps what each of its rounds keeps, by induction on the list. -/
theorem forM {f : ι → Method σ ε PUnit} (h : ∀ i, Keeps I (f i)) (is : List ι) :
    Keeps I (is.forM f) := Triple.forM h is

end Keeps

/-- However the method ends, the state that it leaves behind is related to the
state that it started from. -/
def Relates (R : σ → σ → Prop) (m : Method σ ε α) : Prop := ∀ s, R s (m s).2

namespace Relates

variable {R : σ → σ → Prop} [Std.Refl R] [IsTrans σ R]

omit [IsTrans σ R] in
theorem pure (a : α) : Relates R (Pure.pure a : Method σ ε α) := fun s => refl_of R s

omit [IsTrans σ R] in
theorem get : Relates R (MonadState.get : Method σ ε σ) := fun s => refl_of R s

omit [IsTrans σ R] in
/-- Pure code leaves the state, which is related to itself. -/
theorem lift (x : Outcome ε α) : Relates R (liftM x : Method σ ε α) := fun s => refl_of R s

omit [Std.Refl R] [IsTrans σ R] in
/-- An update relates each state to its result. -/
theorem modify {f : σ → σ} (h : ∀ s, R s (f s)) : Relates R (modify f : Method σ ε PUnit) := h

omit [Std.Refl R] [IsTrans σ R] in
/-- What the relation keeps, the method keeps. -/
theorem keeps {I : σ → Prop} {m : Method σ ε α} (hm : Relates R m)
    (hI : ∀ s s', R s s' → I s → I s') : Keeps I m := by
  intro s hs
  have h := hI s _ (hm s) hs
  revert h
  obtain ⟨o, s'⟩ := m s
  cases o with
  | ok a => exact id
  | err e => exact id
  | panic => exact fun _ => trivial

omit [Std.Refl R] in
/-- Two parts one after the other relate the first state to the last by
transitivity, also if the second part is not reached. -/
theorem bind {m : Method σ ε α} {f : α → Method σ ε β} (hm : Relates R m)
    (hf : ∀ a, Relates R (f a)) : Relates R (m >>= f) := by
  intro s
  have h := hm s
  rw [bind_apply]
  revert h
  obtain ⟨o, s'⟩ := m s
  cases o with
  | ok a => exact fun h => trans_of R h (hf a s')
  | err e => exact id
  | panic => exact id

omit [Std.Refl R] [IsTrans σ R] in
/-- What is known of a call that returned. -/
theorem of_eq {m : Method σ ε α} (hm : Relates R m) {s s' : σ} {o : Outcome ε α}
    (h : m s = (o, s')) :
    R s s' := by
  have hs := hm s
  rwa [h] at hs

omit [Std.Refl R] [IsTrans σ R] in
/-- Code that goes on with the state it finds. -/
theorem get_bind {f : σ → Method σ ε β} (h : ∀ s, R s (f s s).2) :
    Relates R (MonadState.get >>= f) := h

omit [IsTrans σ R] in
/-- Code that goes on with a value, in the state it was found in. -/
theorem lift_bind {x : Outcome ε α} {f : α → Method σ ε β} {s : σ}
    (hf : ∀ a, x = .ok a → R s (f a s).2) : R s (((liftM x : Method σ ε α) >>= f) s).2 := by
  cases x with
  | ok a => exact hf a rfl
  | err e => exact refl_of R s
  | panic => exact refl_of R s

omit [Std.Refl R] in
/-- Code that goes on after an update of the state it was found in. -/
theorem modify_bind {g : σ → σ} {f : PUnit → Method σ ε β} {s : σ} (hg : R s (g s))
    (hf : Relates R (f ())) :
    R s (((MonadStateOf.modifyGet fun s => ((), g s) : Method σ ε PUnit) >>= f) s).2 :=
  trans_of R hg (hf (g s))

omit [Std.Refl R] [IsTrans σ R] in
/-- Code whose failure is caught relates the same states. -/
theorem attempt {m : Method σ ε α} (hm : Relates R m) : Relates R (Method.attempt m) := by
  intro s
  have h := hm s
  unfold Method.attempt
  revert h
  obtain ⟨o, s'⟩ := m s
  cases o <;> exact id

/-- A loop relates the first state to the last, by induction on the list. -/
theorem forM {f : ι → Method σ ε PUnit} (h : ∀ i, Relates R (f i)) :
    (is : List ι) → Relates R (is.forM f)
  | [] => pure _
  | i :: is => bind (h i) fun _ => forM h is

end Relates

/-- The method cannot tell related states apart, and leaves them related. -/
def Respects (R : σ → σ → Prop) (m : Method σ ε α) : Prop :=
  ∀ s s', R s s' → (m s).1 = (m s').1 ∧ R (m s).2 (m s').2

namespace Respects

variable {R : σ → σ → Prop}

theorem pure (a : α) : Respects R (Pure.pure a : Method σ ε α) := fun _ _ h => ⟨rfl, h⟩

/-- An update respects a relation if it leads related states to related states. -/
theorem modify {f : σ → σ} (h : ∀ s s', R s s' → R (f s) (f s')) :
    Respects R (modify f : Method σ ε PUnit) := fun s s' hs => ⟨rfl, h s s' hs⟩

/-- If related states give the same value and related states, the code behind is run
with that value in related states. -/
theorem bind {m : Method σ ε α} {f : α → Method σ ε β} (hm : Respects R m)
    (hf : ∀ a, Respects R (f a)) : Respects R (m >>= f) := by
  intro s s' hs
  obtain ⟨houtcome, hstate⟩ := hm s s' hs
  rw [bind_apply, bind_apply]
  revert houtcome hstate
  obtain ⟨o, t⟩ := m s
  obtain ⟨o', t'⟩ := m s'
  rintro rfl ht
  cases o with
  | ok a => exact hf a t t' ht
  | err e => exact ⟨rfl, ht⟩
  | panic => exact ⟨rfl, ht⟩

/-- Code that goes on with what it reads of the state. -/
theorem get_bind {f : σ → Method σ ε β} (h : ∀ s s', R s s' → (f s s).1 = (f s' s').1 ∧
    R (f s s).2 (f s' s').2) : Respects R (MonadState.get >>= f) := h

/-- Code whose failure is caught respects what the code itself does. -/
theorem attempt {m : Method σ ε α} (hm : Respects R m) : Respects R (Method.attempt m) := by
  intro s s' hs
  obtain ⟨houtcome, hstate⟩ := hm s s' hs
  unfold Method.attempt
  revert houtcome hstate
  obtain ⟨o, t⟩ := m s
  obtain ⟨o', t'⟩ := m s'
  rintro rfl ht
  cases o <;> exact ⟨rfl, ht⟩

/-- A loop respects what each of its rounds respects, by induction on the list. -/
theorem forM {f : ι → Method σ ε PUnit} (h : ∀ i, Respects R (f i)) :
    (is : List ι) → Respects R (is.forM f)
  | [] => pure ()
  | i :: is => bind (h i) fun _ => forM h is

end Respects

end Method
