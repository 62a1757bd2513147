import QuickplayServer.Net.Calls
import QuickplayServer.Net.Header
import QuickplayServer.Net.WriteFrame

/-!
# QuickplayServer.Net.Later

What a channel keeps, in order or not: its configuration, its challenge, the
data of its queued transfers up to those that it retires, and sequence numbers
that fit their fields.
-/

namespace QuickplayServer

namespace NetChannel

open Method (Keeps)

/-- The sequence numbers of the channel fit into the header of a packet. -/
structure Numbered (channel : NetChannel) : Prop where
  out : channel.outSequenceNr < 2 ^ 32
  inc : channel.inSequenceNr < 2 ^ 32

/-- `later` is `channel` after some reading and writing: its queues are what is
left of those of `channel`. -/
structure Later (channel later : NetChannel) : Prop where
  configuration : later.configuration = channel.configuration
  challenge : later.challenge = channel.challenge
  queues : ∀ i, (later.outgoingReliableData i).map (·.data) <:+
    (channel.outgoingReliableData i).map (·.data)
  numbered : channel.Numbered → later.Numbered

/-- A channel is as far as it is. -/
theorem Later.refl (self : NetChannel) : Later self self :=
  ⟨rfl, rfl, fun _ => List.suffix_refl _, id⟩

/-- What happens after what happens later happens later. -/
theorem Later.trans {a b c : NetChannel} (h : Later a b) (h' : Later b c) : Later a c where
  configuration := h'.configuration.trans h.configuration
  challenge := h'.challenge.trans h.challenge
  queues i := (h'.queues i).trans (h.queues i)
  numbered := h'.numbered ∘ h.numbered

/-- A queue that has lost transfers from its front is one of later. -/
theorem setOutgoing_later {self : NetChannel} {i : Fin MAX_STREAMS}
    {queue : List OutgoingReliableData}
    (hqueue : queue.map (·.data) <:+ (self.outgoingReliableData i).map (·.data)) :
    Later self (self.setOutgoing i queue) where
  configuration := rfl
  challenge := rfl
  numbered hself := ⟨hself.out, hself.inc⟩
  queues j := by
    by_cases hj : j = i
    · subst hj
      simpa using hqueue
    · simp [hj]

/-- An update of fields that `Later` says nothing about. -/
theorem Later.congr {first self self' : NetChannel} (h : Later first self)
    (hconfiguration : self'.configuration = self.configuration)
    (hchallenge : self'.challenge = self.challenge)
    (hqueues : self'.outgoingReliableData = self.outgoingReliableData)
    (hout : self'.outSequenceNr = self.outSequenceNr)
    (hin : self'.inSequenceNr = self.inSequenceNr) :
    Later first self' where
  configuration := hconfiguration.trans h.configuration
  challenge := hchallenge.trans h.challenge
  queues i := by rw [hqueues]; exact h.queues i
  numbered hfirst := ⟨hout ▸ (h.numbered hfirst).out, hin ▸ (h.numbered hfirst).inc⟩

/-- The incoming transfers have no part in how far the sending side is. -/
theorem Later.upToReceived {first self later : NetChannel} (hlater : UpToReceived self later)
    (h : Later first self) : Later first later := by
  rw [hlater]
  exact h.congr rfl rfl rfl rfl rfl

/-- No single update puts a transfer into a queue, changes its bytes, or lowers a
sequence number below the bound. -/
theorem SendStep.later {self later : NetChannel} (h : SendStep self later) : Later self later := by
  cases h with
  | subchannel k subchannel h => exact (Later.refl self).congr rfl rfl rfl rfl rfl
  | front hqueue hdata => exact setOutgoing_later (by simp [hqueue, hdata])
  | pop hqueue => exact setOutgoing_later (by simp [hqueue])
  | state outReliableState => exact (Later.refl self).congr rfl rfl rfl rfl rfl
  | number h => exact ⟨rfl, rfl, fun _ => List.suffix_refl _, fun hself => ⟨h, hself.inc⟩⟩

/-- By induction on the updates. -/
theorem Sends.later {self later : NetChannel} (h : Sends self later) : Later self later :=
  h.keeps (fun _ _ hstep hmid => hmid.trans hstep.later) (Later.refl self)

/-- An accepted header sets the two sequence numbers and acknowledges transfers,
which at most leave their queues. -/
theorem acceptSequence_later (first : NetChannel) {sequence : Nat} (hsequence : sequence < 2 ^ 32)
    (sequenceAck reliableState nChoked : Nat) :
    Keeps (Later first) (acceptSequence sequence sequenceAck reliableState nChoked) := by
  refine acceptSequence_keeps (fun _ _ hsends h => h.trans hsends.later) (fun self h => ?_) _ _
  exact ⟨h.configuration, h.challenge, h.queues,
    fun hfirst => ⟨(h.numbered hfirst).out, hsequence⟩⟩

/-! ## What is queued -/

/-- What a run leaves in the queues was queued in it, and nothing is ever
queued on the file stream. -/
structure Queued (ok : List UInt8 → Prop) (channel : NetChannel) : Prop where
  messages : ∀ stream ∈ channel.outgoingReliableData 0, ok stream.data
  file : channel.outgoingReliableData 1 = []
  numbered : channel.Numbered

/-- What holds of all transfers that were queued holds of those that are left, and
the numbers stay in their range. -/
theorem Queued.later {ok : List UInt8 → Prop} {self self' : NetChannel} (h : Queued ok self)
    (hlater : Later self self') : Queued ok self' where
  messages := by
    intro stream hstream
    have hmem : stream.data ∈ (self.outgoingReliableData 0).map (·.data) :=
      (hlater.queues 0).subset (List.mem_map_of_mem hstream)
    obtain ⟨old, hold, heq⟩ := List.mem_map.mp hmem
    exact heq ▸ h.messages old hold
  file := by
    have hqueue := hlater.queues 1
    rw [h.file, List.map_nil, List.suffix_nil, List.map_eq_nil_iff] at hqueue
    exact hqueue
  numbered := hlater.numbered h.numbered

section Calls

variable [BitstreamIo]

/-- Reading a packet acknowledges transfers and receives others, so the sending side
is one of later. -/
theorem readPacket_later [Crc] (first : NetChannel) (packet : List UInt8) :
    Keeps (Later first) (readPacket packet) := by
  refine readPacket_keeps Later.upToReceived
    (readHeader_keeps (fun self header h => ?_) ?_ _ packet)
  · exact h.congr rfl rfl rfl rfl rfl
  · exact fun _ _ _ _ hsequence => acceptSequence_later first hsequence _ _ _

/-! ## Runs -/

variable [Crc]

/-- A call keeps what it does not queue. -/
theorem Call.apply_later {self self' : NetChannel} {call : Call}
    (hcall : ∀ messages, call ≠ .queueReliableMessages messages)
    (happly : call.apply self = some self') : Later self self' := by
  cases call with
  | queueReliableMessages messages => exact absurd rfl (hcall messages)
  | writePacket messages =>
      obtain ⟨-, rfl⟩ := returned_eq_some.mp happly
      exact (writePacket_sends messages self).later
  | readPacket packet =>
      obtain ⟨hpanic, rfl⟩ := returned_eq_some.mp happly
      exact (readPacket_later self packet).run (Later.refl self) hpanic

/-- Only `queue_reliable_messages` adds a transfer, the bytes of its messages; the
other calls lead to a later channel. -/
theorem Call.apply_queued {ok : List UInt8 → Prop} {self self' : NetChannel} {call : Call}
    (h : Queued ok self) (hcall : call.Queues ok) (happly : call.apply self = some self') :
    Queued ok self' ∧ self'.configuration = self.configuration := by
  by_cases hqueue : ∃ messages, call = .queueReliableMessages messages
  · obtain ⟨messages, rfl⟩ := hqueue
    obtain ⟨-, rfl⟩ := returned_eq_some.mp happly
    obtain ⟨stream, hencode, -, -, hok⟩ | ⟨e, herr⟩ := queueReliableMessages_cases messages self
    · rw [hok]
      refine
        ⟨⟨fun other hother => ?_, by simpa using h.file, ⟨h.numbered.out, h.numbered.inc⟩⟩, rfl⟩
      rw [setOutgoing_outgoingReliableData, Function.update_self, List.mem_append,
        List.mem_singleton] at hother
      obtain hother | rfl := hother
      · exact h.messages other hother
      · exact hcall _ hencode
    · rw [herr]
      exact ⟨h, rfl⟩
  · have hlater := Call.apply_later (fun messages heq => hqueue ⟨messages, heq⟩) happly
    exact ⟨h.later hlater, hlater.configuration⟩

/-- In every run each transfer in a queue is what some call of the run has queued,
and the configuration stays the one that the channel was created with. -/
theorem run_queued {ok : List UInt8 → Prop} {challenge : BitVec 32} {configuration : Configuration}
    {calls : List Call} {self : NetChannel} (hcalls : ∀ call ∈ calls, call.Queues ok)
    (hrun : run (new challenge configuration) calls = some self) :
    Queued ok self ∧ self.configuration = configuration := by
  have hnew : Queued ok (new challenge configuration) := 
    ⟨nofun, rfl, ⟨show 1 < 2 ^ 32 by decide, show 0 < 2 ^ 32 by decide⟩⟩
  refine Run.induction_of (I := fun self => Queued ok self ∧ self.configuration = configuration) ?_
    ⟨hnew, rfl⟩ hcalls hrun
  intro self call self' h hcall happly
  obtain ⟨hqueued, hconfiguration⟩ := Call.apply_queued h.1 hcall happly
  exact ⟨hqueued, hconfiguration.trans h.2⟩

/-- Nothing is ever queued on the file stream. -/
theorem run_file {challenge : BitVec 32} {configuration : Configuration} {calls : List Call}
    {self : NetChannel} (hrun : run (new challenge configuration) calls = some self) :
    self.outgoingReliableData 1 = [] := by
  have hany : ∀ call ∈ calls, call.Queues fun _ => True := fun call _ => by
    cases call <;> simp [Call.Queues]
  exact (run_queued hany hrun).1.file

end Calls

end NetChannel

end QuickplayServer
