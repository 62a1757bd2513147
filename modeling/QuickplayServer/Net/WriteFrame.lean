import QuickplayServer.Net.NetChannel

/-!
# QuickplayServer.Net.WriteFrame

What sending does, and what it leaves alone.

Acknowledgements and writing are sequences of a few kinds of updates
(`SendStep`), so what each of these keeps is kept by all of them
(`Sends.keeps`).  They and queueing only touch what the channel has to send
(`UpToSending`).
-/

namespace QuickplayServer

namespace NetChannel

open Method (Keeps Relates)

/-- One update of what a channel has to send. -/
inductive SendStep (self : NetChannel) : NetChannel → Prop
  /-- A subchannel takes no fragments of a stream without transfers. -/
  | subchannel (k : Fin MAX_SUBCHANNELS) (subchannel : SubChannel)
      (h : ∀ i, self.outgoingReliableData i = [] → subchannel.numFragments i = 0 ∨
        subchannel.numFragments i = (self.outgoingSubchannels k).numFragments i) :
      SendStep self (self.setSubchannel k subchannel)
  /-- The counts of the transfer at the front. -/
  | front {i : Fin MAX_STREAMS} {stream stream' : OutgoingReliableData}
      {queue : List OutgoingReliableData} (hqueue : self.outgoingReliableData i = stream :: queue)
      (hdata : stream'.data = stream.data) : SendStep self (self.setOutgoing i (stream' :: queue))
  | pop {i : Fin MAX_STREAMS} {stream : OutgoingReliableData} {queue : List OutgoingReliableData}
      (hqueue : self.outgoingReliableData i = stream :: queue) :
      SendStep self (self.setOutgoing i queue)
  | state (outReliableState : BitVec 8) : SendStep self { self with outReliableState }
  | number {outSequenceNr : Nat} (h : outSequenceNr < 2 ^ 32) :
      SendStep self { self with outSequenceNr }

/-- `later` is `channel` after some updates of what it has to send. -/
abbrev Sends : NetChannel → NetChannel → Prop := Relation.ReflTransGen SendStep

/-- What every update keeps. -/
theorem Sends.keeps {I : NetChannel → Prop}
    (hstep : ∀ self later, SendStep self later → I self → I later)
    {self later : NetChannel} (h : Sends self later) (hself : I self) : I later := by
  induction h with
  | refl => exact hself
  | tail _ hnext ih => exact hstep _ _ hnext ih

/-! ## Acknowledgements -/

/-- Counting an acknowledged subchannel for one stream changes the counts of the
transfer at the front of its queue. -/
theorem ackStream_sends (subchannel : SubChannel) (i : Fin MAX_STREAMS) :
    Relates Sends (ackStream subchannel i) := by
  unfold ackStream
  dsimp only
  split
  · exact Relates.pure _
  · refine Relates.get_bind fun self => ?_
    cases hqueue : self.outgoingReliableData i with
    | nil => exact .refl
    | cons stream queue =>
        refine Relates.lift_bind fun acked _ => Relates.lift_bind fun pending _ => ?_
        exact .single (.front hqueue rfl)

/-- The loop over the subchannels counts the acknowledged ones, frees them, and
marks those that were lost for resending. -/
theorem updateOutgoingSubchannels_sends (sequenceAck : Nat) (acked : BitVec 8) :
    Relates Sends (updateOutgoingSubchannels sequenceAck acked) := by
  refine Relates.forM (fun k => Relates.get_bind fun self => ?_) _
  split_ifs
  · exact .refl
  · refine Relates.bind (Relates.forM (ackStream_sends _) _) (fun _ => ?_) self
    exact Relates.modify fun _ => .single (.subchannel k _ fun _ _ => .inl rfl)
  · exact .refl
  · exact .refl
  · exact .single (.subchannel k _ fun _ _ => .inr rfl)
  · exact .refl
  · exact .refl

/-- A transfer that is acknowledged completely is taken off the front of its queue. -/
theorem popCompletedOutgoingTransfers_sends : Relates Sends popCompletedOutgoingTransfers := by
  refine Relates.forM (fun i => Relates.get_bind fun self => ?_) _
  cases hqueue : self.outgoingReliableData i with
  | nil => exact .refl
  | cons stream queue =>
      refine Relates.lift_bind fun total _ => ?_
      split
      · exact .single (.pop hqueue)
      · exact .refl

/-- What every update keeps, and the two numbers that an accepted header sets,
the part of `read_header` after the challenge check keeps. -/
theorem acceptSequence_keeps {I : NetChannel → Prop} {sequence sequenceAck : Nat}
    (hsends : ∀ self later, Sends self later → I self → I later)
    (haccept :
      ∀ self, I self → I { self with inSequenceNr := sequence, outSequenceNrAck := sequenceAck })
    (reliableState nChoked : Nat) :
    Keeps I (acceptSequence sequence sequenceAck reliableState nChoked) := by
  refine Keeps.bind Keeps.get fun self => Keeps.ite (Keeps.fail _) ?_
  refine Keeps.bind (Keeps.lift _) fun _ => Keeps.bind (Keeps.lift _) fun _ => ?_
  refine Keeps.bind (Keeps.lift _) fun _ => Keeps.ite (Keeps.fail _) ?_
  refine Keeps.bind ((updateOutgoingSubchannels_sends _ _).keeps hsends) fun _ => ?_
  exact Keeps.bind (Keeps.modify haccept) fun _ => popCompletedOutgoingTransfers_sends.keeps hsends

/-! ## Filling a subchannel -/

/-- By induction on the streams: each gives fragments of its front transfer to the
subchannel as long as there is room in a packet. -/
theorem fillStreams_sends (k : Fin MAX_SUBCHANNELS) (streams : List (Fin MAX_STREAMS))
    (remaining : Nat) (sendData : Bool) :
    Relates Sends (fillStreams k streams remaining sendData) := by
  induction streams generalizing remaining sendData with
  | nil => exact Relates.pure _
  | cons i streams ih =>
      refine Relates.get_bind fun self => ?_
      cases hqueue : self.outgoingReliableData i with
      | nil => exact ih _ _ self
      | cons stream queue =>
          refine Relates.lift_bind fun sent _ => Relates.lift_bind fun total _ => ?_
          split
          · exact ih _ _ self
          · refine Relates.lift_bind fun left _ => Relates.lift_bind fun pending _ => ?_
            refine Relates.modify_bind (.tail (.single (.subchannel k _ fun j hj => .inr ?_))
              (.front hqueue rfl)) ?_
            · have hne : j ≠ i := fun hji => by simp [← hji, hj] at hqueue
              exact Function.update_of_ne hne _ _
            · dsimp only
              split
              · exact Relates.pure _
              · exact ih _ _

/-- A free subchannel takes fragments, and then waits to be sent under a new state
bit. -/
theorem fillOutgoingSubchannel_sends : Relates Sends fillOutgoingSubchannel := by
  refine Relates.get_bind fun self => ?_
  cases self.findSubchannel .free with
  | none => exact .refl
  | some k =>
      refine Relates.bind (fillStreams_sends _ _ _ _) (fun sendData => ?_) self
      split
      · refine Relates.modify fun s => ?_
        have hsubchannel : SendStep s (s.setSubchannel k
            { s.outgoingSubchannels k with state := .waitingToSend, sendSeqNr := 0 }) :=
          .subchannel k _ fun _ _ => .inr rfl
        exact .tail (.single hsubchannel) (.state _)
      · exact Relates.pure _

section Calls

variable [BitstreamIo]

/-- A section that is written marks its subchannel as waiting for an acknowledgement. -/
theorem writeStream_sends (k : Fin MAX_SUBCHANNELS) (w : BitWriter) (i : Fin MAX_STREAMS) :
    Relates Sends (writeStream k w i) := by
  refine Relates.get_bind fun self => ?_
  cases self.outgoingReliableData i with
  | nil => exact Relates.lift _ self
  | cons stream queue =>
      exact Relates.lift_bind fun _ _ => .single (.subchannel k _ fun _ _ => .inr rfl)

/-- The reliable part of a packet fills a subchannel, and writes the section of one
that waits to be sent. -/
theorem writeOutgoingReliableData_sends (w : BitWriter) :
    Relates Sends (writeOutgoingReliableData w) := by
  refine Relates.bind fillOutgoingSubchannel_sends fun _ => Relates.bind Relates.get fun self => ?_
  cases self.findSubchannel .waitingToSend with
  | none => exact Relates.pure _
  | some k =>
      refine Relates.bind (Relates.lift _) fun w => Relates.bind ?_ fun _ => Relates.pure _
      refine Relates.bind (writeStream_sends k w 0) fun w => ?_
      exact Relates.bind (writeStream_sends k w 1) fun _ => Relates.pure _

/-- A packet is its reliable part with the messages behind it, and takes the next
sequence number. -/
theorem writePacket_sends [Crc] (messages : List Message) :
    Relates Sends (writePacket messages) := by
  refine Relates.bind Relates.get fun _ => Relates.bind (Relates.lift _) fun _ => ?_
  refine Relates.bind (writeOutgoingReliableData_sends _) fun _ => ?_
  refine Relates.bind (Relates.lift _) fun _ => Relates.bind (Relates.lift _) fun _ => ?_
  refine Relates.bind Relates.get fun _ self => Relates.lift_bind fun nr hnr => ?_
  obtain ⟨hlt, rfl⟩ := Outcome.add32_eq_ok.mp hnr
  exact .single (.number hlt)

end Calls

/-! ## What is left alone -/

/-- `later` is `channel` but for what it has to send. -/
def UpToSending (channel later : NetChannel) : Prop :=
  later = { channel with
    outSequenceNr := later.outSequenceNr
    outReliableState := later.outReliableState
    outgoingReliableData := later.outgoingReliableData
    outgoingSubchannels := later.outgoingSubchannels }

instance : Std.Refl UpToSending := ⟨fun _ => rfl⟩

instance : IsTrans NetChannel UpToSending where
  trans a b c h h' := by
    unfold UpToSending at h h' ⊢
    rw [h', h]

/-- Each update changes the queues, the subchannels, or one of the two numbers of
the sending side, so all of them together do. -/
theorem Sends.upToSending {self later : NetChannel} (h : Sends self later) :
    UpToSending self later := by
  refine h.keeps (fun mid later hstep hmid => ?_) rfl
  unfold UpToSending at hmid ⊢
  cases hstep <;> rw [hmid] <;> rfl

/-- Queueing adds a transfer to the queue of stream 0. -/
theorem queueReliableMessages_upToSending [BitstreamIo] (messages : List Message) :
    Relates UpToSending (queueReliableMessages messages) := by
  refine Relates.bind (Relates.lift _) fun _ => Relates.bind (Relates.lift _) fun _ => ?_
  exact Relates.modify fun _ => rfl

end NetChannel

end QuickplayServer
