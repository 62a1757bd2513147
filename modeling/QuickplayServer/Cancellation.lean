import QuickplayServer.Workers

/-!
# QuickplayServer.Cancellation

What a cancelled connection still does once its round is over: nothing.

Its token is never taken back.  A round in which it is cancelled goes on to its
end; the worker then looks at the token once more and leaves its loop, and what
the client has sent meanwhile stays in the receiver.
-/

namespace QuickplayServer

/-- The connection has been cancelled and only its receiver has grown since. -/
structure Spawned.Halted {Addr Session : Type} (before later : Spawned Addr Session) : Prop where
  same : before.connection.Same later.connection
  cancelled : later.connection.cancelToken = true
  unread : before.connection.packetReceiver <+: later.connection.packetReceiver

namespace Service

section

variable {Addr F SnapError : Type} [DecidableEq Addr] [ToString Addr] [AddressHasher Addr]
variable [SocketAddr Addr] [F32 F] [SerdeJson F] [Snap SnapError] [BitstreamIo] [Crc]
variable {self self' : Service Addr F} {index : Nat}
variable {task : Spawned Addr Quickplay.QuickplaySession}

/-- Every connection is still there after a step, and cancelled if it was. -/
theorem Steps.exists_task {input : Input Addr} (h : Steps self input self')
    (hindex : self.server.spawned[index]? = some task) :
    ∃ task', self'.server.spawned[index]? = some task' ∧
      (task.connection.cancelToken = true → task'.connection.cancelToken = true) := by
  obtain ⟨-, heq⟩ | ⟨-, event, hconnect, hevent⟩ | ⟨source, -, hevent⟩ := h.event
  · exact ⟨task, heq ▸ hindex, id⟩
  · have hrel := Server.advances_step hevent hconnect index
    rw [hindex] at hrel
    cases hindex' : self'.server.spawned[index]? with
    | none => rw [hindex'] at hrel; cases hrel
    | some task' =>
        rw [hindex'] at hrel
        exact ⟨task', rfl, (Option.rel_some_some.mp hrel).2⟩
  · obtain ⟨-, -, -, task', hspawned, -⟩ := Server.step_connect hevent
    obtain ⟨hlt, -⟩ := List.getElem?_eq_some_iff.mp hindex
    exact ⟨task, by rw [hspawned, List.getElem?_append_left hlt, hindex], id⟩

theorem Steps.halted {input : Input Addr} (h : Steps self input self')
    (hindex : self.server.spawned[index]? = some task)
    (hcancel : task.connection.cancelToken = true) :
    ∃ task', self'.server.spawned[index]? = some task' ∧ Spawned.Halted task task' := by
  obtain ⟨task', hindex', hkeep⟩ := h.exists_task hindex
  refine ⟨task', hindex', ?_⟩
  have hcancel' := hkeep hcancel
  have hunchanged : self'.server.spawned[index]? = self.server.spawned[index]? →
      Spawned.Halted task task' := by
    intro heq
    rw [hindex', hindex] at heq
    obtain rfl := Option.some.inj heq
    exact ⟨⟨rfl, rfl⟩, hcancel, List.prefix_refl _⟩
  cases h with
  | accept hdecode hprocess hserver =>
      obtain ⟨-, -, -, new, hspawned, -⟩ := Server.step_connect hserver
      obtain ⟨hlt, -⟩ := List.getElem?_eq_some_iff.mp hindex
      exact hunchanged (by rw [hspawned, List.getElem?_append_left hlt])
  | answer => exact hunchanged rfl
  | drop => exact hunchanged rfl
  | refresh => exact hunchanged rfl
  | regular hdecode hserver =>
      obtain heq | ⟨-, task₀, hindex₀, rfl⟩ := Server.step_packet hserver hindex'
      · exact hunchanged (hindex'.trans heq.symm)
      · obtain rfl := Option.some.inj (hindex.symm.trans hindex₀)
        unfold Spawned.send at hcancel' ⊢
        split
        · exact ⟨⟨rfl, rfl⟩, hcancel, List.prefix_append _ _⟩
        · exact ⟨⟨rfl, rfl⟩, hcancel, List.prefix_refl _⟩
  | task hserver =>
      obtain ⟨task₀, hindex₀, hkeeps⟩ := Server.step_task hserver hindex'
      obtain rfl := Option.some.inj (hindex.symm.trans hindex₀)
      refine ⟨hkeeps.same, hcancel', ?_⟩
      rw [hkeeps.aside.packetReceiver]
  | @work socket i inForce worked sent hi hworking hsent =>
      by_cases heq : i = index
      · subst heq
        obtain rfl := Option.some.inj (hindex.symm.trans hi)
        obtain ⟨hlt, -⟩ := List.getElem?_eq_some_iff.mp hindex
        rw [List.getElem?_set_self hlt] at hindex'
        obtain rfl := Option.some.inj hindex'
        rw [Spawned.workOn, if_pos hcancel]
        exact ⟨⟨rfl, rfl⟩, hcancel, List.prefix_refl _⟩
      · exact hunchanged (List.getElem?_set_ne heq)

/-- From a state between two rounds on, a cancelled connection keeps its channel and
its preferences for good, reads nothing more and sends nothing more, whatever comes in
and whichever tasks run. A round under way when the token is cancelled, as the round of
a `Disconnect` is, still goes on to its end and sends its packet. -/
theorem run_cancelled {inputs : List (Input Addr)} (hrun : Run.run step self inputs = some self')
    (hindex : self.server.spawned[index]? = some task)
    (hcancel : task.connection.cancelToken = true) :
    ∃ task', self'.server.spawned[index]? = some task' ∧ Spawned.Halted task task' ∧
      ∀ socket inForce later, self'.step (.work socket index inForce) = some later →
        later.sent = self'.sent := by
  have hkept : ∃ task', self'.server.spawned[index]? = some task' ∧ Spawned.Halted task task' := by
    refine Run.induction (I := fun later : Service Addr F => ∃ task',
      later.server.spawned[index]? = some task' ∧ Spawned.Halted task task') ?_
      ⟨task, hindex, ⟨rfl, rfl⟩, hcancel, List.prefix_refl _⟩ hrun
    rintro later input next ⟨task₀, hindex₀, hhalted⟩ hstep
    obtain ⟨task', hindex', hhalted'⟩ := (step_cases hstep).halted hindex₀ hhalted.cancelled
    refine ⟨task', hindex', ⟨?_, ?_⟩, hhalted'.cancelled, hhalted.unread.trans hhalted'.unread⟩
    · exact hhalted'.same.netchan.trans hhalted.same.netchan
    · exact hhalted'.same.quickplay.trans hhalted.same.quickplay
  obtain ⟨task', hindex', hhalted⟩ := hkept
  refine ⟨task', hindex', hhalted, fun socket inForce later hstep => ?_⟩
  cases step_cases hstep with
  | @work _ _ _ worked sent hi hworking hsent =>
      obtain rfl := Option.some.inj (hindex'.symm.trans hi)
      obtain hsent | ⟨data, hdata, -⟩ := hsent
      · exact hsent
      · rw [Spawned.workOn, if_pos hhalted.cancelled] at hdata
        cases hdata

end

/-- The client's request comes after the timer. -/
theorem run_cancelled_late : ∃ (self self' : Service (Fin 16) ℚ) (task task' : _),
    self.server.spawned[0]? = some task ∧ task.connection.cancelToken = true ∧
      Run.run step self [.receive openSocket aClient askPacket] = some self' ∧
      self'.server.spawned[0]? = some task' ∧ Spawned.Halted task task' := by
  have hlate : ((Run.run step (new .loadDefault : Service (Fin 16) ℚ)
      [.receive openSocket aClient (connect 7 5), .task .insert, .task (.timeout 0)]).bind
      fun self =>
        (Run.run step self [.receive openSocket aClient askPacket]).bind fun _ =>
          self.server.spawned[0]?.map (·.connection.cancelToken)) = some true := by decide +kernel
  obtain ⟨self, -, hlate⟩ := Option.bind_eq_some_iff.mp hlate
  obtain ⟨self', hrun, hlate⟩ := Option.bind_eq_some_iff.mp hlate
  obtain ⟨task, hindex, hcancel⟩ := Option.map_eq_some_iff.mp hlate
  obtain ⟨task', hindex', hhalted, -⟩ := run_cancelled hrun hindex hcancel
  exact ⟨self, self', task, task', hindex, hcancel, hrun, hindex', hhalted⟩

end Service

end QuickplayServer
