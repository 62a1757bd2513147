import QuickplayServer.Net.Calls
import QuickplayServer.Net.Header

/-!
# QuickplayServer.Net.DropCount

How many packets a header says were dropped.

The count is `sequence - (in_sequence_nr + n_choked + 1)` in `u32`.  A channel
that has only read packets has nothing to acknowledge (`Silent`), so whether
its header panics is a matter of this count alone.
-/

namespace QuickplayServer

namespace NetChannel

open Method (Triple Keeps)

/-- Nothing was ever queued or sent. -/
structure Silent (channel : NetChannel) : Prop where
  queues : ∀ i, channel.outgoingReliableData i = []
  subchannels : ∀ k, channel.outgoingSubchannels k = SubChannel.newFree

theorem Silent.upToReceived {self later : NetChannel} (hlater : UpToReceived self later)
    (h : Silent self) : Silent later := by
  rw [hlater]
  exact ⟨h.queues, h.subchannels⟩

/-- A free subchannel has nothing to settle. -/
theorem updateOutgoingSubchannel_silent {self : NetChannel} (h : Silent self) (sequenceAck : Nat)
    (acked : BitVec 8) (k : Fin MAX_SUBCHANNELS) :
    updateOutgoingSubchannel sequenceAck acked k self = (.ok (), self) ∨
      updateOutgoingSubchannel sequenceAck acked k self =
        (.err .subchannelShouldNotBeFree, self) := by
  unfold updateOutgoingSubchannel
  rw [Method.get_bind, h.subchannels k]
  split
  · exact .inl rfl
  · exact .inr rfl

theorem updateOutgoingSubchannels_silent {self : NetChannel} (h : Silent self) (sequenceAck : Nat)
    (acked : BitVec 8) :
    updateOutgoingSubchannels sequenceAck acked self = (.ok (), self) ∨
      updateOutgoingSubchannels sequenceAck acked self =
        (.err .subchannelShouldNotBeFree, self) := by
  unfold updateOutgoingSubchannels
  induction List.finRange MAX_SUBCHANNELS with
  | nil => exact .inl rfl
  | cons k ks ih =>
      obtain hk | hk := updateOutgoingSubchannel_silent h sequenceAck acked k
      · rw [Method.forM_cons_ok hk]
        exact ih
      · exact .inr (Method.forM_cons_err hk)

theorem popCompletedOutgoingTransfers_silent {self : NetChannel} (h : Silent self) :
    popCompletedOutgoingTransfers self = (.ok (), self) := by
  unfold popCompletedOutgoingTransfers
  induction List.finRange MAX_STREAMS with
  | nil => rfl
  | cons i is ih =>
      have hi : popCompletedOutgoingTransfer i self = (.ok (), self) := by
        unfold popCompletedOutgoingTransfer
        rw [Method.get_bind, h.queues i]
        rfl
      rw [Method.forM_cons_ok hi]
      exact ih

/-- An acknowledgement is accepted, or there is a subchannel that it asks too much of. -/
theorem acceptAck_silent {self : NetChannel} (h : Silent self) (sequence sequenceAck : Nat)
    (acked : BitVec 8) : ∃ later, Silent later ∧
      (acceptAck sequence sequenceAck acked self = (.ok (), later) ∨
        acceptAck sequence sequenceAck acked self = (.err .subchannelShouldNotBeFree, later)) := by
  unfold acceptAck
  obtain hupdate | hupdate := updateOutgoingSubchannels_silent h sequenceAck acked
  · have hnext : Silent { self with inSequenceNr := sequence, outSequenceNrAck := sequenceAck } :=
      ⟨h.queues, h.subchannels⟩
    refine ⟨_, hnext, .inl ?_⟩
    rw [Method.bind_ok hupdate, Method.modify_bind, popCompletedOutgoingTransfers_silent hnext]
  · exact ⟨self, h, .inr (Method.bind_err hupdate)⟩

theorem acceptSequence_silent {sequence : Nat} (hsequence : sequence < 2 ^ 32)
    (sequenceAck reliableState nChoked : Nat) :
    Keeps Silent (acceptSequence sequence sequenceAck reliableState nChoked) := by
  intro self h
  rw [acceptSequence_cases hsequence]
  split_ifs
  · exact h
  · trivial
  · exact h
  · obtain ⟨later, hlater, haccept | haccept⟩ :=
      acceptAck_silent h sequence sequenceAck (BitVec.ofNat 8 reliableState)
    · rw [haccept]
      exact hlater
    · rw [haccept]
      exact hlater

variable [BitstreamIo] [Crc]

theorem readPacket_silent (packet : List UInt8) : Keeps Silent (readPacket packet) := by
  refine readPacket_keeps Silent.upToReceived
    (readHeader_keeps (fun self header h => ?_) ?_ _ packet)
  · exact ⟨h.queues, h.subchannels⟩
  · exact fun _ _ _ _ hsequence => acceptSequence_silent hsequence _ _ _

/-- A channel that has only read packets has nothing to acknowledge. -/
theorem run_silent {challenge : BitVec 32} {configuration : Configuration}
    {packets : List (List UInt8)} {self : NetChannel}
    (hrun : run (new challenge configuration) (packets.map Call.readPacket) = some self) :
    Silent self := by
  have hstep : ∀ (self : NetChannel) (call : Call) (self' : NetChannel), Silent self →
      (∃ packet, Call.readPacket packet = call) → call.apply self = some self' → Silent self' := by
    rintro self _ self' h ⟨packet, rfl⟩ happly
    obtain ⟨hpanic, rfl⟩ := returned_eq_some.mp happly
    exact (readPacket_silent packet).run h hpanic
  have hnew : Silent (new challenge configuration) := ⟨fun _ => rfl, fun _ => rfl⟩
  refine Run.induction_of hstep hnew (fun call hcall => ?_) hrun
  exact (List.mem_map.mp hcall).imp fun _ h => h.2

/-- The count of a header is exact, and the header is refused for it exactly
when it is too large. -/
def CountExact (self : NetChannel) (packet : List UInt8) (header : Header) : Prop :=
  (readHeader { data := packet, pos := 0 } packet self).1 ≠ .panic ∧
    (self.inSequenceNr < header.sequence →
      ((∃ dropped limit, (readHeader { data := packet, pos := 0 } packet self).1 =
          .err (.tooManyPacketsDropped dropped limit)) ↔
        (self.configuration.server.maxPacketsDropped : ℤ) <
          max 0 ((header.sequence : ℤ) - self.inSequenceNr - 1 - header.nChoked)))

/-- The count is exact unless the header claims more choked packets than its
sequence number has room for. -/
theorem countExact_iff {challenge : BitVec 32} {configuration : Configuration}
    {packets : List (List UInt8)} {self : NetChannel}
    (hrun : run (new challenge configuration) (packets.map Call.readPacket) = some self)
    {packet : List UInt8} {header : Header} {reader : BitReader}
    (hheader : Header.read { data := packet, pos := 0 } packet = .ok (header, reader))
    (hadmitted : header.Admitted self) :
    self.CountExact packet header ↔
      (self.inSequenceNr < header.sequence →
        self.inSequenceNr + header.nChoked + 1 ≤ header.sequence) := by
  have hsilent : Silent (header.seenBy self) := by
    have h := run_silent hrun
    exact ⟨h.queues, h.subchannels⟩
  have hsequence := (Header.read_bounds hheader).1
  have hread : readHeader { data := packet, pos := 0 } packet self =
      (do acceptSequence header.sequence header.sequenceAck header.reliableState header.nChoked
          pure (header.flags, reader) : Method NetChannel Error _) (header.seenBy self) := by
    rw [readHeader_eq, hheader, Method.resume_ok]
    exact if_pos hadmitted
  have hnr : (header.seenBy self).inSequenceNr = self.inSequenceNr := rfl
  have hmax : (header.seenBy self).configuration = self.configuration := rfl
  unfold CountExact
  rw [hread, Method.bind_apply, acceptSequence_cases hsequence, hnr, hmax]
  by_cases hstale : header.sequence ≤ self.inSequenceNr
  · rw [if_pos hstale]
    exact iff_of_true ⟨by simp, fun h => absurd h (by omega)⟩ fun h => absurd h (by omega)
  · rw [if_neg hstale]
    by_cases hchoked : header.sequence < self.inSequenceNr + header.nChoked + 1
    · rw [if_pos hchoked]
      exact iff_of_false (fun h => h.1 rfl) fun h => absurd (h (by omega)) (by omega)
    · rw [if_neg hchoked]
      refine iff_of_true ?_ fun _ => by omega
      by_cases hlimit : self.configuration.server.maxPacketsDropped <
          header.sequence - (self.inSequenceNr + header.nChoked + 1)
      · rw [if_pos hlimit]
        exact ⟨by simp, fun _ => iff_of_true ⟨_, _, rfl⟩ (by omega)⟩
      · rw [if_neg hlimit]
        have hle : ¬ (self.configuration.server.maxPacketsDropped : ℤ) <
            max 0 ((header.sequence : ℤ) - self.inSequenceNr - 1 - header.nChoked) := by omega
        obtain ⟨later, -, haccept | haccept⟩ := acceptAck_silent hsilent header.sequence
          header.sequenceAck (BitVec.ofNat 8 header.reliableState)
        · rw [haccept]
          exact ⟨by simp, fun _ => iff_of_false (by simp) hle⟩
        · rw [haccept]
          exact ⟨by simp, fun _ => iff_of_false (by simp) hle⟩

end NetChannel

/-! ## A choked header -/

namespace NetChannel

/-- A packet in order, with nothing choked. -/
def orderlyPacket : List UInt8 := [1, 0, 0, 0, 0, 0, 0, 0, 32, 211, 246, 0, 5, 0, 0, 0]

/-- The same with `PACKET_FLAG_CHOKED` and one choked packet. -/
def chokedPacket : List UInt8 := [1, 0, 0, 0, 0, 0, 0, 0, 48, 93, 195, 0, 1, 5, 0, 0, 0]

theorem countExact_orderlyPacket :
    fresh.CountExact orderlyPacket ⟨1, 0, PACKET_FLAG_CHALLENGE, 0, 0, some 5⟩ ↔
      (fresh.inSequenceNr < 1 → fresh.inSequenceNr + 0 + 1 ≤ 1) := by
  have hheader : Header.read { data := orderlyPacket, pos := 0 } orderlyPacket =
      .ok (⟨1, 0, PACKET_FLAG_CHALLENGE, 0, 0, some 5⟩, { data := orderlyPacket, pos := 128 }) := by
    decide +kernel
  have hrun : run fresh (([] : List (List UInt8)).map Call.readPacket) = some fresh := rfl
  exact countExact_iff hrun hheader (by decide)

/-- The count of a choked header underflows. -/
theorem countExact_chokedPacket :
    Header.read { data := chokedPacket, pos := 0 } chokedPacket =
        .ok (⟨1, 0, PACKET_FLAG_CHOKED ||| PACKET_FLAG_CHALLENGE, 0, 1, some 5⟩,
          { data := chokedPacket, pos := 136 }) ∧
      (readHeader { data := chokedPacket, pos := 0 } chokedPacket fresh).1 = .panic ∧
      ¬ fresh.CountExact chokedPacket
        ⟨1, 0, PACKET_FLAG_CHOKED ||| PACKET_FLAG_CHALLENGE, 0, 1, some 5⟩ := by
  have hpanic : (readHeader { data := chokedPacket, pos := 0 } chokedPacket fresh).1 = .panic := by
    decide +kernel
  exact ⟨by decide +kernel, hpanic, fun h => h.1 hpanic⟩

end NetChannel

end QuickplayServer
