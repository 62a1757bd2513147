import Mathlib

/-!
# QuickplayServer.Lib.Registers

Registers of different types, and scripts of commands that write them.

A script is read from the front.  A command does nothing, is refused, which
ends the script, or writes one register.  After a script that is not refused
every register holds what its last command wrote (`execute_of_last`), and a
script that is refused does what its commands before that do
(`execute_accepted`).
-/

namespace Registers

variable {α ε ι : Type*} {β : ι → Type*} [DecidableEq ι] {meaning : α → Option (Except ε (Sigma β))}
variable {i : ι} {commands before after : List α} {command : α} {registers : ∀ i, β i}

/-- The registers after a script, with the error of the command that is refused, if any is. -/
def execute (meaning : α → Option (Except ε (Sigma β))) :
    List α → (∀ i, β i) → Except ε Unit × (∀ i, β i)
  | [], registers => (.ok (), registers)
  | command :: commands, registers =>
      match meaning command with
      | none => execute meaning commands registers
      | some (.error e) => (.error e, registers)
      | some (.ok write) =>
          execute meaning commands (Function.update registers write.1 write.2)

@[simp] theorem execute_nil : execute meaning [] registers = (.ok (), registers) := rfl

theorem execute_cons_none (h : meaning command = none) :
    execute meaning (command :: commands) registers = execute meaning commands registers := by
  rw [execute, h]

theorem execute_cons_error {e : ε} (h : meaning command = some (.error e)) :
    execute meaning (command :: commands) registers = (.error e, registers) := by
  rw [execute, h]

theorem execute_cons_ok {write : Sigma β} (h : meaning command = some (.ok write)) :
    execute meaning (command :: commands) registers =
      execute meaning commands (Function.update registers write.1 write.2) := by
  rw [execute, h]

/-- A script ends well exactly if no command is refused. -/
theorem execute_eq_ok_iff :
    (execute meaning commands registers).1 = .ok () ↔
      ∀ command ∈ commands, ∀ e, meaning command ≠ some (.error e) := by
  induction commands generalizing registers with
  | nil => simp
  | cons command commands ih =>
      rw [List.forall_mem_cons]
      cases h : meaning command with
      | none => simp [execute_cons_none h, ih]
      | some result =>
          cases result with
          | error e => simp [execute_cons_error h]
          | ok write => simp [execute_cons_ok h, ih]

/-- A register that no command writes keeps its value, also when a command is refused. -/
theorem execute_of_forall_ne
    (h : ∀ command ∈ commands, ∀ v : β i, meaning command ≠ some (.ok ⟨i, v⟩)) :
    (execute meaning commands registers).2 i = registers i := by
  induction commands generalizing registers with
  | nil => rfl
  | cons command commands ih =>
      rw [List.forall_mem_cons] at h
      cases hm : meaning command with
      | none => rw [execute_cons_none hm, ih h.2]
      | some result =>
          cases result with
          | error e => rw [execute_cons_error hm]
          | ok write =>
              have hne : i ≠ write.1 := by
                rintro rfl
                exact h.1 write.2 hm
              rw [execute_cons_ok hm, ih h.2, Function.update_of_ne hne]

/-- After a script that ends well a register holds what was last written to it. -/
theorem execute_of_last {v : β i} (hok : (execute meaning commands registers).1 = .ok ())
    (hcommands : commands = before ++ command :: after)
    (hwrite : meaning command = some (.ok ⟨i, v⟩))
    (hafter : ∀ later ∈ after, ∀ v : β i, meaning later ≠ some (.ok ⟨i, v⟩)) :
    (execute meaning commands registers).2 i = v := by
  subst hcommands
  induction before generalizing registers with
  | nil =>
      rw [List.nil_append, execute_cons_ok hwrite, execute_of_forall_ne hafter,
        Function.update_self]
  | cons first before ih =>
      rw [List.cons_append] at hok ⊢
      cases hm : meaning first with
      | none =>
          rw [execute_cons_none hm] at hok ⊢
          exact ih hok
      | some result =>
          cases result with
          | error e => simp [execute_cons_error hm] at hok
          | ok write =>
              rw [execute_cons_ok hm] at hok ⊢
              exact ih hok

/-! ## Scripts one after the other -/

/-- A script that ends well goes on with the next one. -/
theorem execute_append (hok : (execute meaning before registers).1 = .ok ()) :
    execute meaning (before ++ after) registers =
      execute meaning after (execute meaning before registers).2 := by
  induction before generalizing registers with
  | nil => rfl
  | cons command before ih =>
      rw [List.cons_append]
      cases hm : meaning command with
      | none =>
          rw [execute_cons_none hm] at hok ⊢
          rw [execute_cons_none hm]
          exact ih hok
      | some result =>
          cases result with
          | error e => simp [execute_cons_error hm] at hok
          | ok write =>
              rw [execute_cons_ok hm] at hok ⊢
              rw [execute_cons_ok hm]
              exact ih hok

/-- The commands before the first one that is refused. -/
def accepted (meaning : α → Option (Except ε (Sigma β))) : List α → List α
  | [] => []
  | command :: commands =>
      match meaning command with
      | some (.error _) => []
      | _ => command :: accepted meaning commands

/-- A script does what its accepted commands do. -/
theorem execute_accepted (commands : List α) (registers : ∀ i, β i) :
    execute meaning (accepted meaning commands) registers =
      (.ok (), (execute meaning commands registers).2) := by
  induction commands generalizing registers with
  | nil => rfl
  | cons command commands ih =>
      cases hm : meaning command with
      | none =>
          rw [accepted, hm, execute_cons_none hm, execute_cons_none hm]
          exact ih registers
      | some result =>
          cases result with
          | error e =>
              rw [accepted, hm, execute_cons_error hm]
              rfl
          | ok write =>
              rw [accepted, hm, execute_cons_ok hm, execute_cons_ok hm]
              exact ih _

end Registers
