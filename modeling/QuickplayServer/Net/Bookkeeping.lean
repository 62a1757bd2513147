import QuickplayServer.Net.Fragment

/-!
# QuickplayServer.Net.Bookkeeping

The books of the sender: the counters of the transfer at the front of the
queue and the ranges that the subchannels hold of it.

`Bookkeeping` is the invariant.  Each part of the channel that touches the
sender has one lemma here that says what it does to a channel in order
(`updateOutgoingSubchannel_of_accepts`, `popCompletedOutgoingTransfers_eq`,
`fillOutgoingSubchannel_eq`, `writeOutgoingReliableData_eq`), and the
invariant survives each of them, also when it stops halfway with an error.
-/

namespace QuickplayServer

open SubChannelState

/-! ## Reliable state bits -/

/-- The mask of a subchannel has its bit and no other. -/
theorem getLsbD_mask (k : Fin MAX_SUBCHANNELS) (i : Nat) :
    (1#8 <<< k.val).getLsbD i = decide (i = k.val) := by
  have := k.isLt
  simp only [BitVec.getLsbD_shiftLeft, BitVec.getLsbD_one]
  by_cases h : i = k.val
  · subst h; simp
  · simp [h]; omega

/-- Two states agree under the mask of a subchannel exactly if they agree in its bit. -/
theorem and_mask_eq_iff (a b : BitVec 8) (k : Fin MAX_SUBCHANNELS) :
    a &&& (1#8 <<< k.val) = b &&& (1#8 <<< k.val) ↔ a.getLsbD k = b.getLsbD k := by
  constructor
  · intro h
    have hbit := congrArg (fun v => BitVec.getLsbD v k.val) h
    simpa [BitVec.getLsbD_and, getLsbD_mask] using hbit
  · intro h
    apply BitVec.eq_of_getLsbD_eq
    intro i hi
    simp only [BitVec.getLsbD_and, getLsbD_mask]
    by_cases hik : i = k.val
    · rw [hik, h]
    · simp [hik]

/-- The mask of a subchannel toggles its bit and no other. -/
theorem getLsbD_xor_mask (a : BitVec 8) (k l : Fin MAX_SUBCHANNELS) :
    (a ^^^ (1#8 <<< k.val)).getLsbD l = if l = k then !(a.getLsbD l) else a.getLsbD l := by
  rw [BitVec.getLsbD_xor, getLsbD_mask]
  by_cases h : l = k
  · simp [h]
  · simp [h, Fin.val_inj]

/-! ## The invariant -/

/-- A sum over slots of which one changes. -/
theorem sum_update {ι α : Type} [Fintype ι] [DecidableEq ι] (f : ι → α) (g : α → Nat) (k : ι)
    (x : α) :
    (∑ l, g (Function.update f k x l)) + g (f k) = (∑ l, g (f l)) + g x := by
  have hrest : ∑ l ∈ Finset.univ.erase k, g (Function.update f k x l) =
      ∑ l ∈ Finset.univ.erase k, g (f l) :=
    Finset.sum_congr rfl fun l hl => by rw [Function.update_of_ne (Finset.ne_of_mem_erase hl)]
  rw [← Finset.add_sum_erase _ _ (Finset.mem_univ k), hrest, Function.update_self,
    ← Finset.add_sum_erase _ (fun l => g (f l)) (Finset.mem_univ k)]
  omega

/-- The fragments of the transfer that are in a subchannel or acknowledged. -/
def OutgoingReliableData.sentFragments (self : OutgoingReliableData) : Nat :=
  self.ackedFragments + self.pendingFragments

/-- The fragments of the message stream that the subchannel holds. -/
def SubChannel.range (self : SubChannel) : Finset Nat :=
  Finset.Ico (self.startFragment 0) (self.startFragment 0 + self.numFragments 0)

/-- The most fragments that are sent in one packet. -/
def NetChannel.maxFragments (self : NetChannel) : Nat :=
  self.configuration.server.maxReliablePacketSize / FRAGMENT_SIZE

@[simp] theorem NetChannel.setSubchannel_maxFragments (self : NetChannel) (k : Fin MAX_SUBCHANNELS)
    (subchannel : SubChannel) :
    (self.setSubchannel k subchannel).maxFragments = self.maxFragments := rfl

@[simp] theorem NetChannel.setOutgoing_maxFragments (self : NetChannel) (i : Fin MAX_STREAMS)
    (queue : List OutgoingReliableData) :
    (self.setOutgoing i queue).maxFragments = self.maxFragments := rfl

/-- The books of the sender are in order. -/
structure Bookkeeping (channel : NetChannel) : Prop where
  /-- A packet has room for a fragment. -/
  room : 256 ≤ channel.configuration.server.maxReliablePacketSize
  /-- The size of a queued transfer fits the 26 bits it is sent in. -/
  small : ∀ stream ∈ channel.outgoingReliableData 0, stream.data.length < 2 ^ 26
  /-- Nothing of a transfer behind the front has been sent. -/
  waiting : ∀ stream ∈ (channel.outgoingReliableData 0).tail,
    stream.ackedFragments = 0 ∧ stream.pendingFragments = 0
  /-- The pending fragments are those in the subchannels. -/
  pending : ∀ stream ∈ (channel.outgoingReliableData 0).head?, stream.pendingFragments =
    ∑ k with (channel.outgoingSubchannels k).state ≠ free,
    (channel.outgoingSubchannels k).numFragments 0
  total : ∀ stream ∈ (channel.outgoingReliableData 0).head?,
    stream.sentFragments ≤ fragments stream.data.length
  inside : ∀ stream ∈ (channel.outgoingReliableData 0).head?, ∀ k,
    (channel.outgoingSubchannels k).state ≠ free →
      (channel.outgoingSubchannels k).range ⊆ Finset.range stream.sentFragments
  disjoint : ∀ k l, k ≠ l → (channel.outgoingSubchannels k).state ≠ free →
    (channel.outgoingSubchannels l).state ≠ free →
      Disjoint (channel.outgoingSubchannels k).range (channel.outgoingSubchannels l).range
  free_empty : ∀ k, (channel.outgoingSubchannels k).state = free →
    (channel.outgoingSubchannels k).numFragments 0 = 0
  busy : ∀ k, (channel.outgoingSubchannels k).state ≠ free →
    0 < (channel.outgoingSubchannels k).numFragments 0
  few : ∀ k, (channel.outgoingSubchannels k).numFragments 0 ≤ channel.maxFragments
  idle : channel.outgoingReliableData 0 = [] → ∀ k, (channel.outgoingSubchannels k).state = free
  /-- Nothing is ever sent on the file stream. -/
  noFile : channel.outgoingReliableData 1 = []
  noFileFragments : ∀ k, (channel.outgoingSubchannels k).numFragments 1 = 0

namespace Bookkeeping

variable {channel : NetChannel}

/-- A new channel has its books in order, as nothing is queued and all subchannels
are free. -/
theorem new (challenge : BitVec 32) {configuration : Configuration}
    (hmax : 256 ≤ configuration.server.maxReliablePacketSize) :
    Bookkeeping (NetChannel.new challenge configuration) where
  room := hmax
  small := by simp [NetChannel.new]
  waiting := by simp [NetChannel.new]
  pending := by simp [NetChannel.new]
  total := by simp [NetChannel.new]
  inside := by simp [NetChannel.new]
  disjoint := by simp [NetChannel.new, SubChannel.newFree]
  free_empty := by simp [NetChannel.new, SubChannel.newFree]
  busy := by simp [NetChannel.new, SubChannel.newFree]
  few := by simp [NetChannel.new, SubChannel.newFree]
  idle := by simp [NetChannel.new, SubChannel.newFree]
  noFile := rfl
  noFileFragments := by simp [NetChannel.new, SubChannel.newFree]

/-- The books are in the queues and the subchannels. -/
theorem congr {channel' : NetChannel} (h : Bookkeeping channel)
    (hconfiguration : channel'.configuration = channel.configuration)
    (hqueue : channel'.outgoingReliableData = channel.outgoingReliableData)
    (hsub : channel'.outgoingSubchannels = channel.outgoingSubchannels) : Bookkeeping channel' := by
  constructor <;> simp only [hqueue, hsub, hconfiguration, NetChannel.maxFragments]
  exacts [h.room, h.small, h.waiting, h.pending, h.total, h.inside, h.disjoint, h.free_empty,
    h.busy,
    h.few, h.idle, h.noFile, h.noFileFragments]

/-- Free subchannels hold nothing, so the sum may as well go over all. -/
theorem sum_busy {subchannels : Fin MAX_SUBCHANNELS → SubChannel}
    (h : ∀ k, (subchannels k).state = free → (subchannels k).numFragments 0 = 0) :
    (∑ k with (subchannels k).state ≠ free, (subchannels k).numFragments 0) =
      ∑ k, (subchannels k).numFragments 0 := by
  refine Finset.sum_filter_of_ne fun k _ hk hfree => hk (h k hfree)

/-- A busy subchannel holds fragments of the transfer at the front. -/
theorem front (h : Bookkeeping channel) {k : Fin MAX_SUBCHANNELS}
    (hk : (channel.outgoingSubchannels k).state ≠ free) :
    ∃ stream queue, channel.outgoingReliableData 0 = stream :: queue := by
  cases hqueue : channel.outgoingReliableData 0 with
  | nil => exact absurd (h.idle hqueue k) hk
  | cons stream queue => exact ⟨stream, queue, rfl⟩

section Front

variable {stream : OutgoingReliableData} {queue : List OutgoingReliableData}
  (h : Bookkeeping channel) (hqueue : channel.outgoingReliableData 0 = stream :: queue)

include h hqueue

omit h in
/-- The front transfer is the one at the head of its queue. -/
theorem mem_head? : stream ∈ (channel.outgoingReliableData 0).head? := by simp [hqueue]

/-- The size of the front transfer fits the field for it. -/
theorem front_small : stream.data.length < 2 ^ 26 :=
  h.small stream (by simp [hqueue])

/-- The pending fragments of the front transfer are those that the subchannels hold. -/
theorem front_pending :
    stream.pendingFragments = ∑ k, (channel.outgoingSubchannels k).numFragments 0 := by
  rw [h.pending stream (mem_head? hqueue), sum_busy h.free_empty]

/-- No more fragments are acknowledged or pending than the transfer has. -/
theorem front_total :
    stream.ackedFragments + stream.pendingFragments ≤ fragments stream.data.length :=
  h.total stream (mem_head? hqueue)

/-- The front transfer has at most 2^18 fragments. -/
theorem fragments_lt : fragments stream.data.length ≤ 2 ^ 18 := by
  have := h.front_small hqueue
  rw [fragments_eq]
  omega

/-- What a subchannel holds is pending. -/
theorem num_le_pending (k : Fin MAX_SUBCHANNELS) :
    (channel.outgoingSubchannels k).numFragments 0 ≤ stream.pendingFragments := by
  rw [h.front_pending hqueue]
  exact Finset.single_le_sum (f := fun k => (channel.outgoingSubchannels k).numFragments 0)
    (fun _ _ => Nat.zero_le _) (Finset.mem_univ k)

/-- The fragments that a busy subchannel holds lie within those that were handed out. -/
theorem end_le {k : Fin MAX_SUBCHANNELS} (hk : (channel.outgoingSubchannels k).state ≠ free) :
    (channel.outgoingSubchannels k).startFragment 0 +
      (channel.outgoingSubchannels k).numFragments 0 ≤
      stream.ackedFragments + stream.pendingFragments := by
  have hin := h.inside stream (mem_head? hqueue) k hk
  have hbusy := h.busy k hk
  have hlast : (channel.outgoingSubchannels k).startFragment 0 +
      (channel.outgoingSubchannels k).numFragments 0 - 1 ∈
      (channel.outgoingSubchannels k).range := by
    simp only [SubChannel.range, Finset.mem_Ico]
    omega
  have hlast := hin hlast
  simp only [Finset.mem_range, OutgoingReliableData.sentFragments] at hlast
  omega

end Front

/-- The books do not say which of the busy states a subchannel is in. -/
theorem restate {channel' : NetChannel} (h : Bookkeeping channel)
    (hconfiguration : channel'.configuration = channel.configuration)
    (hqueue : channel'.outgoingReliableData = channel.outgoingReliableData)
    (hstate : ∀ k, (channel'.outgoingSubchannels k).state = free ↔
      (channel.outgoingSubchannels k).state = free)
    (hstart : ∀ k, (channel'.outgoingSubchannels k).startFragment =
      (channel.outgoingSubchannels k).startFragment)
    (hnum : ∀ k, (channel'.outgoingSubchannels k).numFragments =
      (channel.outgoingSubchannels k).numFragments) : Bookkeeping channel' := by
  have hrange :
      ∀ k, (channel'.outgoingSubchannels k).range = (channel.outgoingSubchannels k).range := by
    intro k
    rw [SubChannel.range, SubChannel.range, hstart, hnum]
  constructor <;>
    simp only [hqueue, hconfiguration, ne_eq, hstate, hnum, hrange, NetChannel.maxFragments]
  exacts [h.room, h.small, h.waiting, h.pending, h.total, h.inside, h.disjoint, h.free_empty,
    h.busy,
    h.few, h.idle, h.noFile, h.noFileFragments]

/-- The books of a channel that is sending the transfer `stream`. -/
theorem of_front {stream : OutgoingReliableData} {queue : List OutgoingReliableData}
    (hqueue : channel.outgoingReliableData 0 = stream :: queue)
    (hroom : 256 ≤ channel.configuration.server.maxReliablePacketSize)
    (hsmall : ∀ t ∈ stream :: queue, t.data.length < 2 ^ 26)
    (hwaiting : ∀ t ∈ queue, t.ackedFragments = 0 ∧ t.pendingFragments = 0)
    (hpending : stream.pendingFragments = ∑ k, (channel.outgoingSubchannels k).numFragments 0)
    (htotal : stream.sentFragments ≤ fragments stream.data.length)
    (hinside : ∀ k, (channel.outgoingSubchannels k).state ≠ free →
      (channel.outgoingSubchannels k).startFragment 0 +
        (channel.outgoingSubchannels k).numFragments 0 ≤ stream.sentFragments)
    (hdisjoint : ∀ k l, k ≠ l → (channel.outgoingSubchannels k).state ≠ free →
      (channel.outgoingSubchannels l).state ≠ free →
        Disjoint (channel.outgoingSubchannels k).range (channel.outgoingSubchannels l).range)
    (hfree : ∀ k, (channel.outgoingSubchannels k).state = free →
      (channel.outgoingSubchannels k).numFragments 0 = 0)
    (hbusy : ∀ k, (channel.outgoingSubchannels k).state ≠ free →
      0 < (channel.outgoingSubchannels k).numFragments 0)
    (hfew : ∀ k, (channel.outgoingSubchannels k).numFragments 0 ≤ channel.maxFragments)
    (hnoFile : channel.outgoingReliableData 1 = [])
    (hnoFileFragments : ∀ k, (channel.outgoingSubchannels k).numFragments 1 = 0) :
    Bookkeeping channel where
  room := hroom
  small := by rwa [hqueue]
  waiting := by rwa [hqueue]
  pending := by
    intro t ht
    obtain rfl : stream = t := by simpa [hqueue] using ht
    rw [sum_busy hfree, hpending]
  total := by
    intro t ht
    obtain rfl : stream = t := by simpa [hqueue] using ht
    exact htotal
  inside := by
    intro t ht k hk i hi
    obtain rfl : stream = t := by simpa [hqueue] using ht
    have := hinside k hk
    simp only [SubChannel.range, Finset.mem_Ico, Finset.mem_range] at hi ⊢
    omega
  disjoint := hdisjoint
  free_empty := hfree
  busy := hbusy
  few := hfew
  idle := by simp [hqueue]
  noFile := hnoFile
  noFileFragments := hnoFileFragments

/-- Counting an acknowledged subchannel and freeing it keeps the books in order. -/
theorem free_acked (h : Bookkeeping channel) {stream : OutgoingReliableData}
    {queue : List OutgoingReliableData} (hqueue : channel.outgoingReliableData 0 = stream :: queue)
    (k : Fin MAX_SUBCHANNELS) :
    Bookkeeping ((channel.setOutgoing 0 ({ stream with
      ackedFragments := stream.ackedFragments + (channel.outgoingSubchannels k).numFragments 0
      pendingFragments := stream.pendingFragments - (channel.outgoingSubchannels k).numFragments 0
      } :: queue)).setSubchannel k SubChannel.newFree) := by
  have hnum := h.num_le_pending hqueue k
  have hsum := h.front_pending hqueue
  have hsent : stream.ackedFragments + (channel.outgoingSubchannels k).numFragments 0 +
      (stream.pendingFragments - (channel.outgoingSubchannels k).numFragments 0) =
        stream.sentFragments := by
    unfold OutgoingReliableData.sentFragments
    omega
  have hsmall := h.small
  have hwaiting := h.waiting
  rw [hqueue] at hsmall hwaiting
  refine of_front rfl h.room ?small hwaiting ?pending ?total ?inside ?disjoint ?free ?busy ?few
    h.noFile ?noFileFragments
  case small => simpa using hsmall
  case pending =>
    have hupdate := sum_update channel.outgoingSubchannels (fun s => s.numFragments 0) k
      SubChannel.newFree
    simp only [NetChannel.setSubchannel_outgoingSubchannels,
      NetChannel.setOutgoing_outgoingSubchannels]
    simp only [SubChannel.newFree] at hupdate ⊢
    omega
  case total =>
    have htotal := h.front_total hqueue
    rwa [OutgoingReliableData.sentFragments, hsent]
  case inside =>
    intro l hl
    by_cases hlk : l = k
    · subst hlk
      simp [SubChannel.newFree] at hl
    · have hend := h.end_le hqueue (k := l) (by simpa [hlk] using hl)
      simpa [hlk, OutgoingReliableData.sentFragments, hsent] using hend
  case disjoint =>
    intro l m hlm hl hm
    by_cases hlk : l = k
    · subst hlk
      simp [SubChannel.newFree] at hl
    · by_cases hmk : m = k
      · subst hmk
        simp [SubChannel.newFree] at hm
      · simpa [hlk, hmk] using h.disjoint l m hlm (by simpa [hlk] using hl)
          (by simpa [hmk] using hm)
  case free =>
    intro l hl
    by_cases hlk : l = k
    · subst hlk
      simp [SubChannel.newFree]
    · simpa [hlk] using h.free_empty l (by simpa [hlk] using hl)
  case busy =>
    intro l hl
    by_cases hlk : l = k
    · subst hlk
      simp [SubChannel.newFree] at hl
    · simpa [hlk] using h.busy l (by simpa [hlk] using hl)
  case few =>
    intro l
    by_cases hlk : l = k
    · subst hlk
      simp [SubChannel.newFree]
    · simpa [hlk] using h.few l
  case noFileFragments =>
    intro l
    by_cases hlk : l = k
    · subst hlk
      simp [SubChannel.newFree]
    · simpa [hlk] using h.noFileFragments l

/-- A fresh transfer at the end of the queue keeps the books in order. -/
theorem enqueue (h : Bookkeeping channel) {stream : OutgoingReliableData}
    (hsmall : stream.data.length < 2 ^ 26) (hacked : stream.ackedFragments = 0)
    (hpending : stream.pendingFragments = 0) :
    Bookkeeping (channel.setOutgoing 0 (channel.outgoingReliableData 0 ++ [stream])) := by
  have hsmalls := h.small
  have hwaiting := h.waiting
  cases hqueue : channel.outgoingReliableData 0 with
  | nil =>
      have hfree := h.idle hqueue
      have hfront : (channel.setOutgoing 0 ([] ++ [stream])).outgoingReliableData 0 = [stream] := by
        simp
      refine of_front hfront h.room ?_ ?_ ?_ ?_ ?_ h.disjoint h.free_empty h.busy h.few h.noFile
        h.noFileFragments
      · simpa using hsmall
      · simp
      · rw [hpending, eq_comm]
        exact Finset.sum_eq_zero fun k _ => h.free_empty k (hfree k)
      · simp [OutgoingReliableData.sentFragments, hacked, hpending]
      · exact fun k hk => absurd (hfree k) hk
  | cons front queue =>
      have hfront : (channel.setOutgoing 0 (front :: queue ++ [stream])).outgoingReliableData 0 =
          front :: (queue ++ [stream]) := by simp
      rw [hqueue] at hsmalls hwaiting
      refine of_front hfront h.room ?_ ?_ (h.front_pending hqueue) (h.front_total hqueue)
        (fun k hk => h.end_le hqueue hk) h.disjoint h.free_empty h.busy h.few h.noFile
        h.noFileFragments
      · intro t ht
        obtain ht | ht := List.mem_append.mp (show t ∈ (front :: queue) ++ [stream] from ht)
        · exact hsmalls t ht
        · obtain rfl : t = stream := by simpa using ht
          exact hsmall
      · intro t ht
        obtain ht | ht := List.mem_append.mp ht
        · exact hwaiting t ht
        · obtain rfl : t = stream := by simpa using ht
          exact ⟨hacked, hpending⟩

end Bookkeeping

/-! ## Acknowledgements -/

namespace SubChannel

/-- The acknowledgement cannot be about this subchannel: it is older than the
last send, or it tells a free subchannel to resend. -/
def Rejects (self : SubChannel) (agrees : Bool) (sequenceAck : Nat) : Prop :=
  if agrees then sequenceAck < self.sendSeqNr else self.sendSeqNr ≤ sequenceAck ∧ self.state = free

/-- What an acknowledgement makes of the subchannel. -/
def settle (self : SubChannel) (agrees : Bool) (sequenceAck : Nat) : SubChannel :=
  if self.state = waitingForAck then
    if agrees then newFree
    else if self.sendSeqNr ≤ sequenceAck then { self with state := waitingToSend } else self
  else self

end SubChannel

namespace NetChannel

/-- The acknowledged bit of the subchannel is the one it was last sent with. -/
def Agrees (self : NetChannel) (ackedReliableState : BitVec 8) (k : Fin MAX_SUBCHANNELS) : Bool :=
  self.outReliableState.getLsbD k == ackedReliableState.getLsbD k

theorem finRange_MAX_STREAMS : List.finRange MAX_STREAMS = [0, 1] := rfl

/-- Counts an acknowledged subchannel at the front of stream 0. -/
theorem ackStream_zero {self : NetChannel} {subchannel : SubChannel} {stream : OutgoingReliableData}
    {queue : List OutgoingReliableData} (hqueue : self.outgoingReliableData 0 = stream :: queue)
    (hpos : 0 < subchannel.numFragments 0)
    (hacked : stream.ackedFragments + subchannel.numFragments 0 < 2 ^ 32)
    (hpending : subchannel.numFragments 0 ≤ stream.pendingFragments) :
    ackStream subchannel 0 self = (.ok (), self.setOutgoing 0 ({ stream with
      ackedFragments := stream.ackedFragments + subchannel.numFragments 0
      pendingFragments := stream.pendingFragments - subchannel.numFragments 0 } :: queue)) := by
  simp only [ackStream, Nat.pos_iff_ne_zero.mp hpos, if_false, Method.get_bind, hqueue,
    Outcome.add32_of_lt hacked, Outcome.checkedSub_of_le hpending, Method.lift_bind_ok,
    Method.modify_apply]

/-- A subchannel that holds nothing of a stream counts for nothing there. -/
theorem ackStream_of_zero {self : NetChannel} {subchannel : SubChannel} {i : Fin MAX_STREAMS}
    (h : subchannel.numFragments i = 0) : ackStream subchannel i self = (.ok (), self) := by
  simp only [ackStream, h, if_true, Method.pure_apply]

/-- A subchannel rejects an acknowledgement and the channel is left as it was. -/
theorem updateOutgoingSubchannel_of_rejects {self : NetChannel} {sequenceAck : Nat}
    {acked : BitVec 8} {k : Fin MAX_SUBCHANNELS}
    (h : (self.outgoingSubchannels k).Rejects (self.Agrees acked k) sequenceAck) :
    ∃ e,
    (e = .subchannelShouldNotBeFree ∨ ∃ index seq ack, e = .invalidReliableState index seq ack) ∧
      updateOutgoingSubchannel sequenceAck acked k self = (.err e, self) := by
  unfold SubChannel.Rejects Agrees at h
  simp only [updateOutgoingSubchannel, Method.get_bind, and_mask_eq_iff]
  by_cases hbit : self.outReliableState.getLsbD k = acked.getLsbD k
  · simp only [hbit, beq_self_eq_true, if_true] at h
    simp only [hbit, if_true, gt_iff_lt, h, Method.fail_apply]
    exact ⟨_, .inr ⟨_, _, _, rfl⟩, rfl⟩
  · simp only [beq_eq_false_iff_ne.mpr hbit, Bool.false_eq_true, if_false] at h
    simp only [hbit, if_false, h, if_true, Method.fail_apply]
    exact ⟨_, .inl rfl, rfl⟩

/-- `channel'` is `channel` after the subchannels `ks` took the acknowledgement. -/
structure Settled (sequenceAck : Nat) (acked : BitVec 8) (ks : List (Fin MAX_SUBCHANNELS))
    (channel channel' : NetChannel) : Prop where
  subchannels : ∀ k, channel'.outgoingSubchannels k =
    if k ∈ ks then (channel.outgoingSubchannels k).settle (channel.Agrees acked k) sequenceAck
    else channel.outgoingSubchannels k
  tail : (channel'.outgoingReliableData 0).tail = (channel.outgoingReliableData 0).tail
  front : (channel'.outgoingReliableData 0).head?.map (fun t => (t.data, t.sentFragments)) =
    (channel.outgoingReliableData 0).head?.map fun t => (t.data, t.sentFragments)
  others : channel' = { channel with
    outgoingReliableData := channel'.outgoingReliableData
    outgoingSubchannels := channel'.outgoingSubchannels }

/-- What is done to a subchannel that accepts an acknowledgement. -/
theorem updateOutgoingSubchannel_eq {self : NetChannel} {sequenceAck : Nat} {acked : BitVec 8}
    {k : Fin MAX_SUBCHANNELS}
    (h : ¬ (self.outgoingSubchannels k).Rejects (self.Agrees acked k) sequenceAck) :
    updateOutgoingSubchannel sequenceAck acked k self =
      if (self.outgoingSubchannels k).state = waitingForAck ∧ self.Agrees acked k = true then
        (do (List.finRange MAX_STREAMS).forM (ackStream (self.outgoingSubchannels k))
            modify (·.setSubchannel k SubChannel.newFree) : Method NetChannel Error Unit) self
      else (.ok (), self.setSubchannel k
        ((self.outgoingSubchannels k).settle (self.Agrees acked k) sequenceAck)) := by
  have hsame : self.setSubchannel k (self.outgoingSubchannels k) = self := by
    rw [setSubchannel, Function.update_eq_self]
  simp only [updateOutgoingSubchannel, Method.get_bind, and_mask_eq_iff]
  by_cases hbit : self.outReliableState.getLsbD k = acked.getLsbD k
  · have hagrees : self.Agrees acked k = true := beq_iff_eq.mpr hbit
    have hseq : ¬ (self.outgoingSubchannels k).sendSeqNr > sequenceAck := by
      simpa [SubChannel.Rejects, hagrees] using h
    simp only [hbit, if_true, hseq, if_false, hagrees, and_true]
    by_cases hstate : (self.outgoingSubchannels k).state = waitingForAck
    · simp only [hstate, if_true]
    · simp only [hstate, if_false, SubChannel.settle, hsame, Method.pure_apply]
  · have hagrees : self.Agrees acked k = false := beq_eq_false_iff_ne.mpr hbit
    simp only [hbit, if_false, hagrees, Bool.false_eq_true, and_false]
    by_cases hseq : (self.outgoingSubchannels k).sendSeqNr ≤ sequenceAck
    · have hbusy : (self.outgoingSubchannels k).state ≠ free := by
        simpa [SubChannel.Rejects, hagrees, hseq] using h
      simp only [hseq, if_true, hbusy, if_false]
      by_cases hstate : (self.outgoingSubchannels k).state = waitingForAck
      · simp only [hstate, if_true, Method.modify_apply, SubChannel.settle, Bool.false_eq_true,
          if_false, hseq]
      · simp only [hstate, if_false, SubChannel.settle, hsame, Method.pure_apply]
    · simp only [hseq, if_false, Method.pure_apply, SubChannel.settle, Bool.false_eq_true]
      split <;> rw [hsame]

/-- A subchannel that accepts an acknowledgement settles, and the books stay in order. -/
theorem updateOutgoingSubchannel_of_accepts {self : NetChannel} {sequenceAck : Nat}
    {acked : BitVec 8} {k : Fin MAX_SUBCHANNELS} (hb : Bookkeeping self)
    (h : ¬ (self.outgoingSubchannels k).Rejects (self.Agrees acked k) sequenceAck) :
    ∃ self', updateOutgoingSubchannel sequenceAck acked k self = (.ok (), self') ∧
      Settled sequenceAck acked [k] self self' ∧ Bookkeeping self' := by
  rw [updateOutgoingSubchannel_eq h]
  by_cases hacked : (self.outgoingSubchannels k).state = waitingForAck ∧ self.Agrees acked k = true
  · rw [if_pos hacked]
    obtain ⟨hstate, hagrees⟩ := hacked
    have hbusy : (self.outgoingSubchannels k).state ≠ free := by simp [hstate]
    obtain ⟨stream, queue, hqueue⟩ := hb.front hbusy
    have hfirst := ackStream_zero hqueue (hb.busy k hbusy)
      (by have := hb.end_le hqueue hbusy; have := hb.front_total hqueue
          have := hb.fragments_lt hqueue; have := hb.num_le_pending hqueue k; omega)
      (hb.num_le_pending hqueue k)
    refine ⟨_, ?_, ?_, hb.free_acked hqueue k⟩
    · have hloop : [0, 1].forM (ackStream (self.outgoingSubchannels k)) self = _ :=
        (Method.forM_cons_ok hfirst).trans
          (Method.forM_cons_ok (ackStream_of_zero (hb.noFileFragments k)))
      rw [finRange_MAX_STREAMS, Method.bind_ok hloop, Method.modify_apply]
    · refine ⟨?_, by simp [hqueue], ?_, rfl⟩
      · intro l
        by_cases hl : l = k
        · subst hl; simp [SubChannel.settle, hstate, hagrees]
        · simp [hl]
      · have hnum := hb.num_le_pending hqueue k
        simp only [setSubchannel_outgoingReliableData, setOutgoing_outgoingReliableData,
          Function.update_self, hqueue, List.head?_cons, Option.map_some, Option.some.injEq,
          Prod.mk.injEq, true_and, OutgoingReliableData.sentFragments]
        omega
  · rw [if_neg hacked]
    refine ⟨_, rfl, ⟨fun l => ?_, rfl, rfl, rfl⟩, ?_⟩
    · by_cases hl : l = k
      · subst hl; simp
      · simp [hl]
    · refine hb.restate rfl rfl ?_ ?_ ?_
      all_goals
        intro l
        by_cases hl : l = k
        · subst hl
          simp only [setSubchannel_outgoingSubchannels, Function.update_self, SubChannel.settle]
          grind
        · simp [hl]

/-- Settling subchannels leaves the state bits, so the others agree with the
acknowledgement as before. -/
theorem Settled.agrees {self self' : NetChannel} {sequenceAck : Nat} {acked : BitVec 8}
    {ks : List (Fin MAX_SUBCHANNELS)} (h : Settled sequenceAck acked ks self self')
    (k : Fin MAX_SUBCHANNELS) : self'.Agrees acked k = self.Agrees acked k := by
  rw [Agrees, Agrees, h.others]

/-- The subchannels settle one after the other. -/
theorem Settled.cons {self self' self'' : NetChannel} {sequenceAck : Nat} {acked : BitVec 8}
    {k : Fin MAX_SUBCHANNELS} {ks : List (Fin MAX_SUBCHANNELS)} (hk : k ∉ ks)
    (h : Settled sequenceAck acked [k] self self')
    (h' : Settled sequenceAck acked ks self' self'') :
    Settled sequenceAck acked (k :: ks) self self'' where
  subchannels l := by
    have hfirst := h.subchannels l
    have hrest := h'.subchannels l
    rw [h.agrees l] at hrest
    by_cases hlk : l = k
    · subst hlk
      simpa [hk, hfirst] using hrest
    · simpa [hlk, hfirst] using hrest
  tail := h'.tail.trans h.tail
  front := h'.front.trans h.front
  others := by rw [h'.others, h.others]

/-- The loop over the subchannels, when all of them accept the acknowledgement. -/
theorem updateLoop_of_accepts {sequenceAck : Nat} {acked : BitVec 8}
    {ks : List (Fin MAX_SUBCHANNELS)} (hks : ks.Nodup) {self : NetChannel} (hb : Bookkeeping self)
    (h : ∀ k ∈ ks, ¬ (self.outgoingSubchannels k).Rejects (self.Agrees acked k) sequenceAck) :
    ∃ self', ks.forM (updateOutgoingSubchannel sequenceAck acked) self = (.ok (), self') ∧
      Settled sequenceAck acked ks self self' ∧ Bookkeeping self' := by
  induction ks generalizing self with
  | nil => exact ⟨self, rfl, ⟨fun _ => by simp, rfl, rfl, rfl⟩, hb⟩
  | cons k ks ih =>
      obtain ⟨hk, hks⟩ := List.nodup_cons.mp hks
      obtain ⟨mid, hmid, hsettled, hbmid⟩ :=
        updateOutgoingSubchannel_of_accepts hb (h k List.mem_cons_self)
      have hrest :
          ∀ l ∈ ks, ¬ (mid.outgoingSubchannels l).Rejects (mid.Agrees acked l) sequenceAck := by
        intro l hl
        have hlk : l ≠ k := fun heq => hk (heq ▸ hl)
        rw [hsettled.agrees, hsettled.subchannels, if_neg (by simpa using hlk)]
        exact h l (List.mem_cons_of_mem k hl)
      obtain ⟨self', hself', hsettled', hb'⟩ := ih hks hbmid hrest
      exact ⟨self', (Method.forM_cons_ok hmid).trans hself', hsettled.cons hk hsettled', hb'⟩

/-- When every subchannel accepts the acknowledgement, every subchannel settles. -/
theorem updateOutgoingSubchannels_of_accepts {sequenceAck : Nat} {acked : BitVec 8}
    {self : NetChannel} (hb : Bookkeeping self)
    (h : ∀ k, ¬ (self.outgoingSubchannels k).Rejects (self.Agrees acked k) sequenceAck) :
    ∃ self', updateOutgoingSubchannels sequenceAck acked self = (.ok (), self') ∧
      Settled sequenceAck acked (List.finRange MAX_SUBCHANNELS) self self' ∧ Bookkeeping self' :=
  updateLoop_of_accepts (List.nodup_finRange _) hb fun k _ => h k

/-- An acknowledgement never panics: what a subchannel holds is pending. -/
theorem updateOutgoingSubchannels_ne_panic {sequenceAck : Nat} {acked : BitVec 8}
    {self : NetChannel}
    (hb : Bookkeeping self) : (updateOutgoingSubchannels sequenceAck acked self).1 ≠ .panic := by
  unfold updateOutgoingSubchannels
  generalize List.finRange MAX_SUBCHANNELS = ks
  induction ks generalizing self with
  | nil => simp
  | cons k ks ih =>
      by_cases hk : (self.outgoingSubchannels k).Rejects (self.Agrees acked k) sequenceAck
      · obtain ⟨e, -, heq⟩ := updateOutgoingSubchannel_of_rejects hk
        rw [Method.forM_cons_err heq]
        simp
      · obtain ⟨self', heq, -, hb'⟩ := updateOutgoingSubchannel_of_accepts hb hk
        rw [Method.forM_cons_ok heq]
        exact ih hb'

/-! ## Completed transfers -/

/-- The channel after its front transfer was popped, if that is complete. -/
def popped (self : NetChannel) : NetChannel :=
  match self.outgoingReliableData 0 with
  | [] => self
  | stream :: queue =>
      if stream.ackedFragments = fragments stream.data.length then self.setOutgoing 0 queue
        else self

/-- With the books in order, popping takes the front transfer off if all of its
fragments are acknowledged, and never panics. -/
theorem popCompletedOutgoingTransfers_eq {self : NetChannel} (hb : Bookkeeping self) :
    popCompletedOutgoingTransfers self = (.ok (), self.popped) := by
  have hfile : ∀ c : NetChannel, c.outgoingReliableData 1 = [] →
      popCompletedOutgoingTransfer 1 c = (.ok (), c) := by
    intro c hc
    simp only [popCompletedOutgoingTransfer, Method.get_bind, hc, Method.pure_apply]
  have hmessages : popCompletedOutgoingTransfer 0 self = (.ok (), self.popped) := by
    unfold popCompletedOutgoingTransfer popped
    cases hqueue : self.outgoingReliableData 0 with
    | nil => simp only [Method.get_bind, hqueue, Method.pure_apply]
    | cons stream queue =>
        have htotal := OutgoingReliableData.totalFragments_eq (hb.front_small hqueue)
        simp only [Method.get_bind, hqueue, htotal, Method.lift_bind_ok]
        split <;> simp only [Method.modify_apply, Method.pure_apply]
  have hnoFile : self.popped.outgoingReliableData 1 = [] := by
    unfold popped
    split
    · exact hb.noFile
    · split
      · simpa using hb.noFile
      · exact hb.noFile
  exact (Method.forM_cons_ok hmessages).trans (Method.forM_cons_ok (hfile _ hnoFile))

/-- A completed transfer has nothing in the subchannels any more. -/
theorem all_free_of_complete {self : NetChannel} (hb : Bookkeeping self)
    {stream : OutgoingReliableData} {queue : List OutgoingReliableData}
    (hqueue : self.outgoingReliableData 0 = stream :: queue)
    (hcomplete : stream.ackedFragments = fragments stream.data.length) (k : Fin MAX_SUBCHANNELS) :
    (self.outgoingSubchannels k).state = free := by
  by_contra hk
  have := hb.busy k hk
  have := hb.num_le_pending hqueue k
  have := hb.front_total hqueue
  omega

/-- The transfer that comes to the front next has sent nothing, and all subchannels
are free then, so the books stay in order. -/
theorem popped_keeps {self : NetChannel} (hb : Bookkeeping self) : Bookkeeping self.popped := by
  unfold popped
  split
  case h_1 => exact hb
  case h_2 stream queue hqueue =>
    split
    case isFalse => exact hb
    case isTrue hcomplete =>
      have hfree := all_free_of_complete hb hqueue hcomplete
      have hsmall := hb.small
      have hwaiting := hb.waiting
      rw [hqueue] at hsmall hwaiting
      cases queue with
      | nil =>
          constructor
          case room => exact hb.room
          case few => exact hb.few
          case idle => exact fun _ => hfree
          case free_empty => exact hb.free_empty
          case busy => exact hb.busy
          case disjoint => exact hb.disjoint
          case noFile => exact hb.noFile
          case noFileFragments => exact hb.noFileFragments
          all_goals simp
      | cons next queue =>
          obtain ⟨hacked, hpending⟩ := hwaiting next List.mem_cons_self
          have hfront :
              (self.setOutgoing 0 (next :: queue)).outgoingReliableData 0 = next :: queue := by
            simp
          refine Bookkeeping.of_front hfront hb.room ?_ ?_ ?_ ?_ ?_ hb.disjoint hb.free_empty
            hb.busy
            hb.few hb.noFile hb.noFileFragments
          · exact fun t ht => hsmall t (List.mem_cons_of_mem stream ht)
          · exact fun t ht => hwaiting t (List.mem_cons_of_mem next ht)
          · rw [hpending, eq_comm]
            exact Finset.sum_eq_zero fun k _ => hb.free_empty k (hfree k)
          · simp [OutgoingReliableData.sentFragments, hacked, hpending]
          · exact fun k hk => absurd (hfree k) hk

/-! ## Filling a subchannel -/

/-- Assigns the next `num` fragments of the front transfer to subchannel `k`. -/
def assign (self : NetChannel) (k : Fin MAX_SUBCHANNELS) (stream : OutgoingReliableData)
    (queue : List OutgoingReliableData) (num : Nat) : NetChannel :=
  let subchannel := self.outgoingSubchannels k
  let stream' := { stream with pendingFragments := stream.pendingFragments + num }
  (self.setSubchannel k { subchannel with
    startFragment := Function.update subchannel.startFragment 0 stream.sentFragments
    numFragments := Function.update subchannel.numFragments 0 num }).setOutgoing 0
      (stream' :: queue)

/-- Fills subchannel `k` with the next `num` fragments of the front transfer. -/
def fill (self : NetChannel) (k : Fin MAX_SUBCHANNELS) (stream : OutgoingReliableData)
    (queue : List OutgoingReliableData) (num : Nat) : NetChannel :=
  let self := self.assign k stream queue num
  { self.setSubchannel k
      { self.outgoingSubchannels k with state := waitingToSend, sendSeqNr := 0 } with
    outReliableState := self.outReliableState ^^^ (1#8 <<< k.val) }

/-- The channel after `fill_outgoing_subchannel`. -/
def filled (self : NetChannel) : NetChannel :=
  match self.findSubchannel free, self.outgoingReliableData 0 with
  | some k, stream :: queue =>
      if stream.sentFragments = fragments stream.data.length then self
      else self.fill k stream queue
        (min self.maxFragments (fragments stream.data.length - stream.sentFragments))
  | _, _ => self

/-- A subchannel that is found has the state that was looked for. -/
theorem findSubchannel_eq_some {self : NetChannel} {state : SubChannelState}
    {k : Fin MAX_SUBCHANNELS} (h : self.findSubchannel state = some k) :
    (self.outgoingSubchannels k).state = state := by
  simpa using List.find?_some h

/-- A stream without transfers is passed over. -/
theorem fillStreams_of_nil {self : NetChannel} {k : Fin MAX_SUBCHANNELS} {i : Fin MAX_STREAMS}
    {streams : List (Fin MAX_STREAMS)} {remaining : Nat} {sendData : Bool}
    (h : self.outgoingReliableData i = []) :
    fillStreams k (i :: streams) remaining sendData self =
      fillStreams k streams remaining sendData self := by
  simp only [fillStreams, Method.get_bind, h]

/-- The last stream without transfers ends the loop. -/
theorem fillStreams_one_of_nil {self : NetChannel} {k : Fin MAX_SUBCHANNELS} {remaining : Nat}
    {sendData : Bool} (h : self.outgoingReliableData 1 = []) :
    fillStreams k [1] remaining sendData self = (.ok sendData, self) := by
  rw [fillStreams_of_nil h]
  rfl

/-- A free subchannel takes the next fragments of the front transfer, as many
as a packet has room for. -/
theorem fillOutgoingSubchannel_of_lt {self : NetChannel} {k : Fin MAX_SUBCHANNELS}
    {stream : OutgoingReliableData} {queue : List OutgoingReliableData}
    (hfind : self.findSubchannel free = some k)
    (hqueue : self.outgoingReliableData 0 = stream :: queue)
    (hfile : self.outgoingReliableData 1 = []) (hsize : stream.data.length + 256 < 2 ^ 32)
    (hlt : stream.sentFragments < fragments stream.data.length) :
    fillOutgoingSubchannel self = (.ok (), self.fill k stream queue
      (min self.maxFragments (fragments stream.data.length - stream.sentFragments))) := by
  have hfragments : fragments stream.data.length < 2 ^ 32 := by rw [fragments_eq]; omega
  have hsum : stream.ackedFragments + stream.pendingFragments < fragments stream.data.length := hlt
  have hsent : (Outcome.add32 stream.ackedFragments stream.pendingFragments : Result Nat) =
      .ok stream.sentFragments := Outcome.add32_of_lt (by omega)
  have htotal : stream.totalFragments = .ok (fragments stream.data.length) :=
    bytesToFragments_of_lt hsize
  have hloop : fillStreams k [0, 1] self.maxFragments false self = (.ok true,
      self.assign k stream queue
        (min self.maxFragments (fragments stream.data.length - stream.sentFragments))) := by
    rw [fillStreams]
    simp only [Method.get_bind, hqueue, hsent, htotal, Method.lift_bind_ok, if_neg hlt.ne,
      Outcome.checkedSub_of_le hlt.le]
    rw [Outcome.add32_of_lt (by unfold OutgoingReliableData.sentFragments at *; omega)]
    simp only [Method.lift_bind_ok, Method.modify_bind]
    split
    · rfl
    · exact fillStreams_one_of_nil (by simpa using hfile)
  unfold fillOutgoingSubchannel
  simp only [Method.get_bind, finRange_MAX_STREAMS, hfind]
  exact (Method.bind_ok hloop).trans rfl

/-- With the books in order, filling gives the lowest free subchannel the next
fragments of the front transfer if there are any, and never panics. -/
theorem fillOutgoingSubchannel_eq {self : NetChannel} (hb : Bookkeeping self) :
    fillOutgoingSubchannel self = (.ok (), self.filled) := by
  unfold filled
  cases hfind : self.findSubchannel free with
  | none => simp only [fillOutgoingSubchannel, Method.get_bind, hfind, Method.pure_apply]
  | some k =>
      cases hqueue : self.outgoingReliableData 0 with
      | nil =>
          have hloop : fillStreams k [0, 1] self.maxFragments false self = (.ok false, self) :=
            (fillStreams_of_nil hqueue).trans (fillStreams_one_of_nil hb.noFile)
          simp only [fillOutgoingSubchannel, Method.get_bind, finRange_MAX_STREAMS, hfind]
          exact (Method.bind_ok hloop).trans rfl
      | cons stream queue =>
          have htotal := hb.front_total hqueue
          have hsmall := hb.front_small hqueue
          have hfragments := hb.fragments_lt hqueue
          dsimp only
          split
          case isTrue hdone =>
            have hsent :
                (Outcome.add32 stream.ackedFragments stream.pendingFragments : Result Nat) =
                .ok stream.sentFragments := Outcome.add32_of_lt (by omega)
            have hloop : fillStreams k [0, 1] self.maxFragments false self = (.ok false, self) := by
              rw [fillStreams]
              simp only [Method.get_bind, hqueue, hsent,
                OutgoingReliableData.totalFragments_eq hsmall,
                Method.lift_bind_ok, if_pos hdone]
              exact fillStreams_one_of_nil hb.noFile
            simp only [fillOutgoingSubchannel, Method.get_bind, finRange_MAX_STREAMS, hfind]
            exact (Method.bind_ok hloop).trans rfl
          case isFalse hmore =>
            exact fillOutgoingSubchannel_of_lt hfind hqueue hb.noFile (by omega)
              (Nat.lt_of_le_of_ne htotal hmore)

section Fill

variable (self : NetChannel) (k : Fin MAX_SUBCHANNELS) (stream : OutgoingReliableData)
  (queue : List OutgoingReliableData) (num : Nat)

@[simp] theorem fill_outgoingReliableData :
    (self.fill k stream queue num).outgoingReliableData =
      Function.update self.outgoingReliableData 0
      ({ stream with pendingFragments := stream.pendingFragments + num } :: queue) := rfl

@[simp] theorem fill_maxFragments :
    (self.fill k stream queue num).maxFragments = self.maxFragments := rfl

/-- The subchannel that is filled holds the fragments behind those that were handed
out before. -/
theorem fill_outgoingSubchannels :
    (self.fill k stream queue num).outgoingSubchannels = Function.update self.outgoingSubchannels k
      { state := waitingToSend
        startFragment :=
          Function.update (self.outgoingSubchannels k).startFragment 0 stream.sentFragments
        numFragments := Function.update (self.outgoingSubchannels k).numFragments 0 num
        sendSeqNr := 0 } := by
  simp [fill, assign]

end Fill

/-- Handing out the next fragments to a free subchannel keeps the books in order. -/
theorem fill_keeps {self : NetChannel} (hb : Bookkeeping self) {k : Fin MAX_SUBCHANNELS}
    (hk : (self.outgoingSubchannels k).state = free) {stream : OutgoingReliableData}
    {queue : List OutgoingReliableData} (hqueue : self.outgoingReliableData 0 = stream :: queue)
    {num : Nat} (hpos : 0 < num) (hnum : stream.sentFragments + num ≤ fragments stream.data.length)
    (hfew : num ≤ self.maxFragments) : Bookkeeping (self.fill k stream queue num) := by
  have hfront : (self.fill k stream queue num).outgoingReliableData 0 =
      { stream with pendingFragments := stream.pendingFragments + num } :: queue := by simp
  have hsum := hb.front_pending hqueue
  have hempty := hb.free_empty k hk
  have hsmall := hb.small
  have hwaiting := hb.waiting
  rw [hqueue] at hsmall hwaiting
  refine Bookkeeping.of_front hfront hb.room ?small hwaiting ?pending ?total ?inside ?disjoint ?free
    ?busy ?few hb.noFile ?noFileFragments
  case small => simpa using hsmall
  case pending =>
    rw [fill_outgoingSubchannels]
    have hupdate := sum_update self.outgoingSubchannels (fun s => s.numFragments 0) k
      { state := waitingToSend
        startFragment :=
          Function.update (self.outgoingSubchannels k).startFragment 0 stream.sentFragments
        numFragments := Function.update (self.outgoingSubchannels k).numFragments 0 num
        sendSeqNr := 0 }
    simp only [Function.update_self] at hupdate ⊢
    omega
  case total =>
    simp only [OutgoingReliableData.sentFragments] at hnum ⊢
    omega
  case inside =>
    intro l hl
    by_cases hlk : l = k
    · subst hlk
      simp [fill_outgoingSubchannels, OutgoingReliableData.sentFragments]
      omega
    · have hend := hb.end_le hqueue (k := l) (by simpa [fill_outgoingSubchannels, hlk] using hl)
      simp only [fill_outgoingSubchannels, ne_eq, hlk, not_false_eq_true, Function.update_of_ne,
        OutgoingReliableData.sentFragments]
      omega
  case disjoint =>
    -- the new range starts where all the others end
    have hnew : ∀ l ≠ k, (self.outgoingSubchannels l).state ≠ free →
        Disjoint ((self.fill k stream queue num).outgoingSubchannels k).range
          (self.outgoingSubchannels l).range := by
      intro l _ hl
      have hend := hb.end_le hqueue hl
      refine Finset.disjoint_left.mpr fun i hi hi' => ?_
      simp only [fill_outgoingSubchannels, SubChannel.range, Function.update_self, Finset.mem_Ico,
        OutgoingReliableData.sentFragments] at hi hi'
      omega
    intro l m hlm hl hm
    by_cases hlk : l = k
    · subst hlk
      have hml : m ≠ l := fun h => hlm h.symm
      have hm' : (self.outgoingSubchannels m).state ≠ free := by
        simpa [fill_outgoingSubchannels, hml] using hm
      simpa [fill_outgoingSubchannels, hml] using hnew m hml hm'
    · have hl' : (self.outgoingSubchannels l).state ≠ free := by
        simpa [fill_outgoingSubchannels, hlk] using hl
      by_cases hmk : m = k
      · subst hmk
        simpa [fill_outgoingSubchannels, hlk] using (hnew l hlk hl').symm
      · have hm' : (self.outgoingSubchannels m).state ≠ free := by
          simpa [fill_outgoingSubchannels, hmk] using hm
        simpa [fill_outgoingSubchannels, hlk, hmk] using hb.disjoint l m hlm hl' hm'
  case free =>
    intro l hl
    by_cases hlk : l = k
    · subst hlk
      simp [fill_outgoingSubchannels] at hl
    · simpa [fill_outgoingSubchannels, hlk] using
        hb.free_empty l (by simpa [fill_outgoingSubchannels, hlk] using hl)
  case busy =>
    intro l hl
    by_cases hlk : l = k
    · subst hlk
      simpa [fill_outgoingSubchannels] using hpos
    · simpa [fill_outgoingSubchannels, hlk] using
        hb.busy l (by simpa [fill_outgoingSubchannels, hlk] using hl)
  case few =>
    intro l
    by_cases hlk : l = k
    · subst hlk
      simpa [fill_outgoingSubchannels] using hfew
    · simpa [fill_outgoingSubchannels, hlk] using hb.few l
  case noFileFragments =>
    intro l
    by_cases hlk : l = k
    · subst hlk
      simpa [fill_outgoingSubchannels] using hb.noFileFragments l
    · simpa [fill_outgoingSubchannels, hlk] using hb.noFileFragments l

/-- Filling a subchannel only touches the sender. -/
theorem filled_others (self : NetChannel) : self.filled = { self with
    outgoingReliableData := self.filled.outgoingReliableData
    outReliableState := self.filled.outReliableState
    outgoingSubchannels := self.filled.outgoingSubchannels } := by
  unfold filled
  split
  · split <;> rfl
  · rfl

/-- Filling leaves the configuration. -/
theorem filled_configuration (self : NetChannel) :
    self.filled.configuration = self.configuration := by
  rw [filled_others]

/-- Filling leaves the sequence number. -/
theorem filled_outSequenceNr (self : NetChannel) :
    self.filled.outSequenceNr = self.outSequenceNr := by
  rw [filled_others]

/-- Filling keeps the books in order. -/
theorem filled_keeps {self : NetChannel} (hb : Bookkeeping self) : Bookkeeping self.filled := by
  have hpos : 0 < self.maxFragments := Nat.div_pos hb.room (by decide)
  unfold filled
  split
  case h_2 => exact hb
  case h_1 k stream queue hfind hqueue =>
    have htotal := hb.front_total hqueue
    split
    · exact hb
    · refine fill_keeps hb (findSubchannel_eq_some hfind) hqueue ?_ ?_ (Nat.min_le_left _ _)
      all_goals
        unfold OutgoingReliableData.sentFragments at *
        omega

/-! ## Writing -/

/-- The channel after subchannel `k` was written into the packet. -/
def marked (self : NetChannel) (k : Fin MAX_SUBCHANNELS) : NetChannel :=
  self.setSubchannel k
    { self.outgoingSubchannels k with state := waitingForAck, sendSeqNr := self.outSequenceNr }

/-- Sending what a busy subchannel holds keeps the books in order. -/
theorem marked_keeps {self : NetChannel} (hb : Bookkeeping self) {k : Fin MAX_SUBCHANNELS}
    (hk : (self.outgoingSubchannels k).state ≠ free) : Bookkeeping (self.marked k) := by
  refine hb.restate rfl rfl ?_ ?_ ?_
  all_goals
    intro l
    by_cases hl : l = k
    · subst hl; simp [marked, hk]
    · simp [marked, hl]

variable [BitstreamIo]

/-- With no subchannel that waits to be sent, no reliable section is written. -/
theorem writeOutgoingReliableData_of_none {self : NetChannel} (hb : Bookkeeping self)
    (hfind : self.filled.findSubchannel waitingToSend = none) (w : BitWriter) :
    writeOutgoingReliableData w self = (.ok (false, w), self.filled) := by
  rw [writeOutgoingReliableData, Method.bind_ok (fillOutgoingSubchannel_eq hb)]
  simp only [Method.get_bind, hfind, Method.pure_apply]

/-- A stream without transfers takes one bit. -/
theorem writeStream_of_nil {self : NetChannel} {k : Fin MAX_SUBCHANNELS} {i : Fin MAX_STREAMS}
    (h : self.outgoingReliableData i = []) (w : BitWriter) :
    writeStream k w i self = (.ok ⟨w.bits ++ [false]⟩, self) := by
  simp only [writeStream, Method.get_bind, h, BitWriter.writeBit_eq, Method.lift_apply]

/-- The subchannel is marked when its fragments were written. -/
theorem writeStream_of_cons {self : NetChannel} {k : Fin MAX_SUBCHANNELS} {i : Fin MAX_STREAMS}
    {stream : OutgoingReliableData} {queue : List OutgoingReliableData}
    (h : self.outgoingReliableData i = stream :: queue) (w : BitWriter) :
    writeStream k w i self =
      match writeFragment self.configuration ((self.outgoingSubchannels k).startFragment i)
        ((self.outgoingSubchannels k).numFragments i) stream w with
      | .ok w' => (.ok w', self.marked k)
      | .err e => (.err e, self)
      | .panic => (.panic, self) := by
  simp only [writeStream, Method.get_bind, h]
  cases writeFragment self.configuration ((self.outgoingSubchannels k).startFragment i)
    ((self.outgoingSubchannels k).numFragments i) stream w <;> rfl

/-- The subchannel that waits to be sent is written and marked, if its
fragments can be written. -/
theorem writeOutgoingReliableData_of_some {self : NetChannel} (hb : Bookkeeping self)
    {k : Fin MAX_SUBCHANNELS}
    (hfind : self.filled.findSubchannel waitingToSend = some k) {stream : OutgoingReliableData}
    {queue : List OutgoingReliableData}
    (hqueue : self.filled.outgoingReliableData 0 = stream :: queue) (w : BitWriter) :
    writeOutgoingReliableData w self =
      match writeFragment self.configuration ((self.filled.outgoingSubchannels k).startFragment 0)
        ((self.filled.outgoingSubchannels k).numFragments 0) stream
        ⟨w.bits ++ BitList.ofNat 3 k⟩ with
      | .ok w' => (.ok (true, ⟨w'.bits ++ [false]⟩), self.filled.marked k)
      | .err e => (.err e, self.filled)
      | .panic => (.panic, self.filled) := by
  have hnoFile : (self.filled.marked k).outgoingReliableData 1 = [] := (filled_keeps hb).noFile
  have hindex : (k : Nat) < 2 ^ 3 := k.isLt
  have hfirst := writeStream_of_cons hqueue (k := k) ⟨w.bits ++ BitList.ofNat 3 k⟩
  rw [filled_configuration] at hfirst
  rw [writeOutgoingReliableData, Method.bind_ok (fillOutgoingSubchannel_eq hb)]
  simp only [Method.get_bind, hfind, BitWriter.writeOut_of_lt hindex, Method.lift_bind_ok,
    finRange_MAX_STREAMS]
  cases hfragment : writeFragment self.configuration
    ((self.filled.outgoingSubchannels k).startFragment 0)
    ((self.filled.outgoingSubchannels k).numFragments 0) stream ⟨w.bits ++ BitList.ofNat 3 k⟩ with
  | ok w' =>
      rw [hfragment] at hfirst
      have hloop : [0, 1].foldlM (writeStream k) ⟨w.bits ++ BitList.ofNat 3 k⟩ self.filled =
          (.ok ⟨w'.bits ++ [false]⟩, self.filled.marked k) :=
        (Method.bind_ok hfirst).trans (Method.bind_ok (writeStream_of_nil hnoFile w'))
      rw [Method.bind_ok hloop, Method.pure_apply]
  | err e =>
      rw [hfragment] at hfirst
      have hloop : [0, 1].foldlM (writeStream k) ⟨w.bits ++ BitList.ofNat 3 k⟩ self.filled =
          (.err e, self.filled) := Method.bind_err hfirst
      rw [Method.bind_err hloop]
  | panic =>
      rw [hfragment] at hfirst
      have hloop : [0, 1].foldlM (writeStream k) ⟨w.bits ++ BitList.ofNat 3 k⟩ self.filled =
          (.panic, self.filled) := Method.bind_panic hfirst
      rw [Method.bind_panic hloop]

end NetChannel

end QuickplayServer
