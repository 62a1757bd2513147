import QuickplayServer.Net.Filling
import QuickplayServer.Net.PeerLink

/-!
# QuickplayServer.Net.Remaining

What a sender has left to do.

`NetChannel.remaining` counts the fragments that are not acknowledged yet and
the transfers that are not popped yet.  Writing a packet leaves it as it is, an
accepted header never makes it more, and makes it less when it frees a
subchannel or finds the front transfer complete (`Acknowledged.remaining_lt`).

The first fragment of a transfer, which carries its header, is only ever in
subchannel 0 (`HeaderFirst`), so it is the one that is sent again first.
-/

namespace QuickplayServer

open SubChannelState

namespace NetChannel

/-- The fragments that are not acknowledged and the transfers that are not popped. -/
def remaining (self : NetChannel) : Nat :=
  ((self.outgoingReliableData 0).map fun stream =>
    fragments stream.data.length - stream.ackedFragments + 1).sum

/-- The front transfer counts with its fragments that are not acknowledged, and with
one for being popped. -/
theorem remaining_of_cons {self : NetChannel} {stream : OutgoingReliableData}
    {queue : List OutgoingReliableData} (hqueue : self.outgoingReliableData 0 = stream :: queue) :
    self.remaining = fragments stream.data.length - stream.ackedFragments + 1 +
      (queue.map fun stream => fragments stream.data.length - stream.ackedFragments + 1).sum := by
  rw [remaining, hqueue, List.map_cons, List.sum_cons]

/-- Filling a subchannel acknowledges nothing. -/
@[simp] theorem remaining_filled (self : NetChannel) : self.filled.remaining = self.remaining := by
  cases hfillable : self.fillable with
  | none => rw [filled_of_none hfillable]
  | some k =>
      obtain ⟨stream, queue, hqueue, -, -, hfilled⟩ := filled_of_some hfillable
      rw [hfilled, remaining_of_cons (by rw [fill_outgoingReliableData, Function.update_self]),
        remaining_of_cons hqueue]

/-- Sending a section acknowledges nothing. -/
@[simp] theorem remaining_sent (self : NetChannel) (reliable : Option Section) :
    (self.sent reliable).remaining = self.remaining := by
  cases reliable <;> rfl

end NetChannel

namespace SubChannel

/-- Settling never gives a subchannel more fragments. -/
theorem numFragments_settle_le (subchannel : SubChannel) (agrees : Bool) (sequenceAck : Nat) :
    (subchannel.settle agrees sequenceAck).numFragments 0 ≤ subchannel.numFragments 0 := by
  unfold settle
  split
  · split
    · exact Nat.zero_le _
    · split <;> exact Nat.le_refl _
  · exact Nat.le_refl _

/-- A subchannel that was sent is freed, or is to be sent again. -/
theorem settle_ne_waitingForAck {subchannel : SubChannel} {agrees : Bool} {sequenceAck : Nat}
    (h : subchannel.state = waitingForAck → subchannel.sendSeqNr ≤ sequenceAck) :
    (subchannel.settle agrees sequenceAck).state ≠ waitingForAck := by
  unfold settle
  split
  case isTrue hstate =>
    split
    · simp [newFree]
    · rw [if_pos (h hstate)]
      simp
  case isFalse hstate => exact hstate

/-- A free subchannel stays free. -/
theorem settle_of_free {subchannel : SubChannel} (h : subchannel.state = free) (agrees : Bool)
    (sequenceAck : Nat) : (subchannel.settle agrees sequenceAck).state = free := by
  simp [settle, h]

/-- A subchannel that is acknowledged is freed. -/
theorem settle_of_agrees {subchannel : SubChannel} (h : subchannel.state = waitingForAck)
    (sequenceAck : Nat) : (subchannel.settle true sequenceAck).state = free := by
  rw [settle, if_pos h]
  rfl

end SubChannel

namespace NetChannel

namespace Acknowledged

variable {sequence sequenceAck : Nat} {acked : BitVec 8} {channel later : NetChannel}

/-- Acknowledgements leave no more fragments pending than before. -/
theorem pending_le (h : Acknowledged sequence sequenceAck acked channel later) :
    ∑ l, (later.outgoingSubchannels l).numFragments 0 ≤
      ∑ l, (channel.outgoingSubchannels l).numFragments 0 := by
  refine Finset.sum_le_sum fun l _ => ?_
  rw [h.subchannels]
  exact SubChannel.numFragments_settle_le _ _ _

/-- The fragments in a subchannel that is freed are not pending any more. -/
theorem pending_lt (h : Acknowledged sequence sequenceAck acked channel later)
    (hb : Bookkeeping channel) {k : Fin MAX_SUBCHANNELS}
    (hbusy : (channel.outgoingSubchannels k).state ≠ free)
    (hfree : (later.outgoingSubchannels k).state = free) :
    ∑ l, (later.outgoingSubchannels l).numFragments 0 <
      ∑ l, (channel.outgoingSubchannels l).numFragments 0 := by
  refine Finset.sum_lt_sum (fun l _ => ?_) ⟨k, Finset.mem_univ k, ?_⟩
  · rw [h.subchannels]
    exact SubChannel.numFragments_settle_le _ _ _
  · rw [h.books.free_empty k hfree]
    exact hb.busy k hbusy

/-- A transfer that is not popped has as much less to do as is pending no more. -/
theorem remaining_cases (h : Acknowledged sequence sequenceAck acked channel later)
    (hb : Bookkeeping channel) {stream : OutgoingReliableData} {queue : List OutgoingReliableData}
    (hqueue : channel.outgoingReliableData 0 = stream :: queue) :
    later.remaining < channel.remaining ∨
      ¬ (stream.sentFragments = fragments stream.data.length ∧
        ∀ k, (later.outgoingSubchannels k).state = free) ∧
      later.remaining + ∑ l, (channel.outgoingSubchannels l).numFragments 0 =
        channel.remaining + ∑ l, (later.outgoingSubchannels l).numFragments 0 := by
  have hlater := h.queue stream queue hqueue
  rw [remaining_of_cons hqueue]
  by_cases hcomplete : stream.sentFragments = fragments stream.data.length ∧
      ∀ k, (later.outgoingSubchannels k).state = free
  · rw [if_pos hcomplete] at hlater
    rw [remaining, hlater]
    exact .inl (by omega)
  · rw [if_neg hcomplete] at hlater
    obtain ⟨stream', hqueue', hdata, hsent⟩ := hlater
    have htotal := hb.front_total hqueue
    rw [← hb.front_pending hqueue, ← h.books.front_pending hqueue', remaining_of_cons hqueue',
      hdata]
    unfold OutgoingReliableData.sentFragments at hsent
    exact .inr ⟨hcomplete, by omega⟩

/-- Acknowledgements leave no more to do than before. -/
theorem remaining_le (h : Acknowledged sequence sequenceAck acked channel later)
    (hb : Bookkeeping channel) : later.remaining ≤ channel.remaining := by
  cases hqueue : channel.outgoingReliableData 0 with
  | nil => rw [remaining, remaining, hqueue, h.empty hqueue]
  | cons stream queue =>
      have hpending := h.pending_le
      obtain hlt | ⟨-, heq⟩ := h.remaining_cases hb hqueue <;> omega

/-- Freeing a subchannel or popping a transfer is progress. -/
theorem remaining_lt (h : Acknowledged sequence sequenceAck acked channel later)
    (hb : Bookkeeping channel) {stream : OutgoingReliableData} {queue : List OutgoingReliableData}
    (hqueue : channel.outgoingReliableData 0 = stream :: queue)
    (hprogress : (∃ k, (channel.outgoingSubchannels k).state ≠ free ∧
        (later.outgoingSubchannels k).state = free) ∨
      stream.sentFragments = fragments stream.data.length ∧
        ∀ k, (later.outgoingSubchannels k).state = free) :
    later.remaining < channel.remaining := by
  obtain hlt | ⟨hmore, heq⟩ := h.remaining_cases hb hqueue
  · exact hlt
  · obtain ⟨k, hbusy, hfree⟩ := hprogress.resolve_right hmore
    have hpending := h.pending_lt hb hbusy hfree
    omega

end Acknowledged

/-! ## The header comes first -/

/-- Only subchannel 0 ever holds the first fragment of a transfer. -/
def HeaderFirst (self : NetChannel) : Prop :=
  ∀ k, (self.outgoingSubchannels k).state ≠ free →
    (self.outgoingSubchannels k).startFragment 0 = 0 → k.val = 0

/-- All subchannels are free when the first fragment of a transfer is handed out, so
subchannel 0 takes it. -/
theorem HeaderFirst.filled {self : NetChannel} (h : HeaderFirst self) (hb : Bookkeeping self) :
    HeaderFirst self.filled := by
  cases hfillable : self.fillable with
  | none => rwa [filled_of_none hfillable]
  | some k =>
      obtain ⟨stream, queue, hqueue, hfind, -, hfilled⟩ := filled_of_some hfillable
      intro l hbusy hstart
      by_cases hl : l = k
      · -- nothing was sent of the transfer, so all subchannels were free
        subst hl
        have hsent : stream.sentFragments = 0 := by
          simpa [hfilled, fill_outgoingSubchannels] using hstart
        have hfree : (self.outgoingSubchannels 0).state = free := by
          by_contra hbusy'
          have := hb.busy 0 hbusy'
          have := hb.num_le_pending hqueue 0
          unfold OutgoingReliableData.sentFragments at hsent
          omega
        have hzero := findSubchannel_of_lowest hfree fun l hl => absurd hl (Fin.not_lt_zero l)
        exact congrArg Fin.val (Option.some.inj (hfind.symm.trans hzero))
      · have hsame : self.filled.outgoingSubchannels l = self.outgoingSubchannels l := by
          simp [hfilled, fill_outgoingSubchannels, hl]
        rw [hsame] at hbusy hstart
        exact h l hbusy hstart

/-- Sending leaves which fragments a subchannel holds. -/
theorem sent_startFragment (self : NetChannel) (reliable : Option Section)
    (k : Fin MAX_SUBCHANNELS) :
    ((self.sent reliable).outgoingSubchannels k).startFragment =
      (self.outgoingSubchannels k).startFragment := by
  cases reliable with
  | none => rfl
  | some s =>
      by_cases hk : k = s.subchannel
      · subst hk
        simp [NetChannel.sent, marked]
      · simp [NetChannel.sent, marked, hk]

/-- Putting a subchannel into a packet does not free it. -/
theorem sent_state_eq_free {self : NetChannel} {reliable : Option Section}
    (hcarries : self.Carries reliable) (k : Fin MAX_SUBCHANNELS) :
    ((self.sent reliable).outgoingSubchannels k).state = free ↔
      (self.outgoingSubchannels k).state = free := by
  cases reliable with
  | none => rfl
  | some s =>
      by_cases hk : k = s.subchannel
      · subst hk
        simp [NetChannel.sent, marked, findSubchannel_eq_some hcarries.1]
      · simp [NetChannel.sent, marked, hk]

/-- Sending leaves which subchannel holds the first fragment. -/
theorem HeaderFirst.sent {self : NetChannel} (h : HeaderFirst self) {reliable : Option Section}
    (hcarries : self.Carries reliable) : HeaderFirst (self.sent reliable) := by
  intro k hbusy hstart
  rw [sent_startFragment] at hstart
  exact h k (mt (sent_state_eq_free hcarries k).mpr hbusy) hstart

/-! ## What is written next -/

/-- Every subchannel that was sent is acknowledged, or is to be sent again. -/
def Answered (self : NetChannel) : Prop := ∀ k, (self.outgoingSubchannels k).state ≠ waitingForAck

/-- A subchannel that is filled waits to be sent, not for an acknowledgement. -/
theorem Answered.filled {self : NetChannel} (h : Answered self) : Answered self.filled := by
  intro k
  have hsub := self.filled_subchannel k
  split at hsub
  · simp [hsub.2.1]
  · rw [hsub.1]
    exact h k

/-- Nothing is left to be sent when nothing waits to be sent. -/
theorem Answered.carries_none {self : NetChannel} (h : Answered self)
    (hcarries : self.filled.Carries none) :
    (∀ k, (self.filled.outgoingSubchannels k).state = free) ∧ self.filled = self ∧
      ∀ stream ∈ (self.outgoingReliableData 0).head?,
        stream.sentFragments = fragments stream.data.length := by
  have hnone : ∀ k, (self.filled.outgoingSubchannels k).state ≠ waitingToSend := by
    simpa [Carries, findSubchannel] using hcarries
  have hfree : ∀ k, (self.filled.outgoingSubchannels k).state = free := by
    intro k
    have hsent := h.filled k
    have hready := hnone k
    cases hstate : (self.filled.outgoingSubchannels k).state with
    | free => rfl
    | waitingToSend => exact absurd hstate hready
    | waitingForAck => exact absurd hstate hsent
  have hfillable : self.fillable = none := by
    rw [Option.eq_none_iff_forall_ne_some]
    intro k hk
    have hsub := self.filled_subchannel k
    rw [if_pos hk] at hsub
    exact hnone k hsub.2.1
  have hsame := filled_of_none hfillable
  refine ⟨hfree, hsame, fun stream hstream => ?_⟩
  rw [hsame] at hfree
  have hzero := findSubchannel_of_lowest (hfree 0) fun l hl => absurd hl (Fin.not_lt_zero l)
  cases hqueue : self.outgoingReliableData 0 with
  | nil => simp [hqueue] at hstream
  | cons front queue =>
      obtain rfl : front = stream := by simpa [hqueue] using hstream
      rw [fillable, hzero, hqueue] at hfillable
      by_contra hmore
      simp [hmore] at hfillable

/-- The header is sent before what is behind it. -/
theorem Answered.carries_header {self : NetChannel} (h : Answered self) (hfirst : HeaderFirst self)
    {s : Section} (hcarries : self.Carries (some s)) {k : Fin MAX_SUBCHANNELS}
    (hbusy : (self.outgoingSubchannels k).state ≠ free)
    (hstart : (self.outgoingSubchannels k).startFragment 0 = 0) : s.fragment.start = 0 := by
  obtain rfl : k = 0 := Fin.ext (hfirst k hbusy hstart)
  have hready : (self.outgoingSubchannels 0).state = waitingToSend := by
    have hsent := h 0
    cases hstate : (self.outgoingSubchannels 0).state with
    | free => exact absurd hstate hbusy
    | waitingToSend => rfl
    | waitingForAck => exact absurd hstate hsent
  have hzero := findSubchannel_of_lowest hready fun l hl => absurd hl (Fin.not_lt_zero l)
  obtain ⟨hfind, -, hnumber, -⟩ := hcarries
  obtain hsub := Option.some.inj (hfind.symm.trans hzero)
  rw [hnumber, hsub, hstart]

end NetChannel

end QuickplayServer
