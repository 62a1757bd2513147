import QuickplayServer.Net.Calls

/-!
# QuickplayServer.Net.Wire

Packets on the wire.

A `Packet` is what a packet says: its header fields, the subchannel it
carries and the messages behind it.  `writePacket_eq` says that a channel
whose books are in order writes the bytes of a `Packet`, `readHeader_bytes`
that the header of a `Packet` is read back up to the sequence number.
-/

namespace QuickplayServer

/-- A subchannel with the fragments it is sent with. -/
structure Section where
  subchannel : Fin MAX_SUBCHANNELS
  fragment : Fragment

namespace Section

/-- The reliable section of a packet: the subchannel, stream 0, and no stream 1. -/
def bits (s : Section) : List Bool := BitList.ofNat 3 s.subchannel ++ s.fragment.bits ++ [false]

end Section

/-- A single block that does not pass the size assertion of the sender. -/
def Oversized (maxReliablePacketSize : Nat) : Option Section → Prop
  | none => False
  | some s => s.fragment.IsSingleBlock ∧ maxReliablePacketSize ≤ s.fragment.data.length

instance (maxReliablePacketSize : Nat) : (s : Option Section) →
    Decidable (Oversized maxReliablePacketSize s)
  | none => inferInstanceAs (Decidable False)
  | some _ => inferInstanceAs (Decidable (_ ∧ _))

structure Packet where
  sequence : Nat
  sequenceAck : Nat
  reliableState : BitVec 8
  challenge : BitVec 32
  reliable : Option Section
  messages : List Message

namespace Packet

def flags (p : Packet) : PacketFlags :=
  if p.reliable.isSome then PACKET_FLAG_CHALLENGE ||| PACKET_FLAG_RELIABLE
    else PACKET_FLAG_CHALLENGE

theorem flags_contains_reliable (p : Packet) :
    p.flags.contains PACKET_FLAG_RELIABLE = p.reliable.isSome := by
  cases hreliable : p.reliable <;>
    simp only [flags, hreliable, Option.isSome_none, Option.isSome_some] <;> decide

/-- The bits behind the header. -/
def body (p : Packet) : List Bool :=
  (p.reliable.map Section.bits).getD [] ++ Message.bitsAll p.messages

/-- The bytes that the checksum is over. -/
def checked (p : Packet) : List UInt8 :=
  UInt8.ofNat p.reliableState.toNat :: BitList.leBytes 4 p.challenge.toNat ++
    BitList.toBytes (BitList.align p.body)

def bytes [Crc] (p : Packet) : List UInt8 :=
  BitList.leBytes 4 p.sequence ++ BitList.leBytes 4 p.sequenceAck ++ [UInt8.ofNat p.flags.toNat] ++
    BitList.leBytes 2 (calculateChecksum p.checked) ++ p.checked

theorem length_bytes [Crc] (p : Packet) :
    p.bytes.length = 16 + (BitList.toBytes (BitList.align p.body)).length := by
  simp [bytes, checked]
  omega

end Packet

theorem calculateChecksum_lt [Crc] (bytes : List UInt8) : calculateChecksum bytes < 2 ^ 16 := by
  rw [calculateChecksum, BitVec.toNat_and]
  exact Nat.lt_of_le_of_lt Nat.and_le_right (by decide)

namespace Packet

/-- The fields and the body of a packet, as they are read. -/
theorem rest_bytes [Crc] (p : Packet) : BitReader.rest { data := p.bytes, pos := 0 } =
    BitList.ofNat 32 p.sequence ++ (BitList.ofNat 32 p.sequenceAck ++
      (BitList.ofNat 8 p.flags.toNat ++ (BitList.ofNat 16 (calculateChecksum p.checked) ++
        (BitList.ofNat 8 p.reliableState.toNat ++ (BitList.ofNat 32 p.challenge.toNat ++
          BitList.align p.body))))) := by
  have hstate : (UInt8.ofNat p.reliableState.toNat).toNat = p.reliableState.toNat := by
    simp
  have hflags : (UInt8.ofNat p.flags.toNat).toNat = p.flags.toNat := by
    simp
  simp only [BitReader.rest_start, Packet.bytes, Packet.checked, List.cons_append,
    BitList.ofBytes_append, BitList.ofBytes_cons, BitList.ofBytes_leBytes, hstate,
    hflags, BitList.ofBytes_toBytes (BitList.dvd_length_align _), List.append_assoc,
      List.nil_append,
    Nat.reduceMul]

/-- Behind the header are the section and the messages, padded to whole bytes. -/
theorem rest_body [Crc] (p : Packet) :
    BitReader.rest { data := p.bytes, pos := 128 } = BitList.align p.body := by
  have hr := rest_bytes p
  rw [BitReader.rest_start] at hr
  rw [BitReader.rest, hr]
  simp only [← List.append_assoc]
  exact List.drop_left' (by simp)

end Packet

namespace NetChannel

/-- What the channel says in its next packet. -/
def packet (self : NetChannel) (reliable : Option Section) (messages : List Message) : Packet where
  sequence := self.outSequenceNr
  sequenceAck := self.inSequenceNr
  reliableState := self.inReliableState
  challenge := self.challenge
  reliable := reliable
  messages := messages

/-- The header with dummy flags and checksum. -/
def headerBytes (self : NetChannel) : List UInt8 :=
  BitList.leBytes 4 self.outSequenceNr ++ BitList.leBytes 4 self.inSequenceNr ++ [0, 0, 0] ++
    UInt8.ofNat self.inReliableState.toNat :: BitList.leBytes 4 self.challenge.toNat

/-- The flags and the checksum are written into the finished buffer. -/
theorem finishPacket_eq [Crc] (self : NetChannel) (reliable : Option Section)
    (messages : List Message) :
    finishPacket (self.packet reliable messages).flags
        (self.headerBytes ++ BitList.toBytes (BitList.align (self.packet reliable messages).body)) =
      (self.packet reliable messages).bytes := by
  have hlong : ¬ (self.headerBytes ++
      BitList.toBytes (BitList.align (self.packet reliable messages).body)).length <
        MIN_PACKET_SIZE := by
    simp [headerBytes, MIN_PACKET_SIZE]
    omega
  simp only [finishPacket, if_neg hlong]
  simp [headerBytes, Packet.bytes, Packet.checked, BitList.leBytes, packet]

variable [BitstreamIo]

theorem writeHeader_eq {self : NetChannel} (hout : self.outSequenceNr < 2 ^ 32)
    (hin : self.inSequenceNr < 2 ^ 32) :
    writeHeader self { bits := [] } = .ok ⟨BitList.ofBytes self.headerBytes⟩ := by
  have hstate : self.inReliableState.toNat < 2 ^ 8 := self.inReliableState.isLt
  have hchallenge : self.challenge.toNat < 2 ^ 32 := self.challenge.isLt
  unfold writeHeader
  simp only [BitWriter.writeOut_of_lt hout, BitWriter.writeOut_of_lt hin,
    BitWriter.writeOut_of_lt hstate, BitWriter.writeOut_of_lt hchallenge,
    BitWriter.writeOut_of_lt (show 0 < 2 ^ 8 by decide),
    BitWriter.writeOut_of_lt (show 0 < 2 ^ 16 by decide), Outcome.ok_bind]
  have hbyte : (UInt8.ofNat self.inReliableState.toNat).toNat = self.inReliableState.toNat := by
    simp
  simp only [headerBytes, BitList.ofBytes_append, BitList.ofBytes_leBytes, BitList.ofBytes_cons,
    hbyte]
  simp [BitList.ofNat_zero]

/-- `reliable` is what the filled channel puts into its next packet: the first
subchannel that waits to be sent, with its fragments of the front transfer. -/
def Carries (self : NetChannel) : Option Section → Prop
  | none => self.findSubchannel .waitingToSend = none
  | some s => self.findSubchannel .waitingToSend = some s.subchannel ∧
      (∃ stream queue, self.outgoingReliableData 0 = stream :: queue ∧
        stream.data = s.fragment.data) ∧
      s.fragment.start = (self.outgoingSubchannels s.subchannel).startFragment 0 ∧
      s.fragment.num = (self.outgoingSubchannels s.subchannel).numFragments 0

/-- The filled channel after it put `reliable` into a packet. -/
def sent (self : NetChannel) : Option Section → NetChannel
  | none => self
  | some s => self.marked s.subchannel

omit [BitstreamIo] in
/-- The fragments that a busy subchannel holds. -/
theorem exists_section {self : NetChannel} (hb : Bookkeeping self) {k : Fin MAX_SUBCHANNELS}
    (hnum : (self.outgoingSubchannels k).numFragments 0 < 8)
    (hfind : self.findSubchannel .waitingToSend = some k) :
    ∃ s : Section, s.subchannel = k ∧ Carries self (some s) := by
  have hbusy : (self.outgoingSubchannels k).state ≠ .free := by simp [findSubchannel_eq_some hfind]
  obtain ⟨stream, queue, hqueue⟩ := hb.front hbusy
  have hpos := hb.busy k hbusy
  have hle := (hb.end_le hqueue hbusy).trans (hb.front_total hqueue)
  have hsmall := hb.front_small hqueue
  have hbytes := hle
  rw [fragments_eq] at hbytes
  refine ⟨⟨k, {
    data := stream.data
    start := (self.outgoingSubchannels k).startFragment 0
    num := (self.outgoingSubchannels k).numFragments 0
    le := hle
    inside := by omega
    size := by omega
    fields := .inr ⟨by unfold MAX_FILE_SIZE_BITS FRAGMENT_BITS; omega, hnum, fun _ => hsmall⟩ }⟩,
      rfl, hfind, ⟨stream, queue, hqueue, rfl⟩, rfl, rfl⟩

omit [BitstreamIo] in
theorem filled_maxFragments (self : NetChannel) : self.filled.maxFragments = self.maxFragments := by
  rw [maxFragments, maxFragments, filled_configuration]

omit [BitstreamIo] in
/-- A subchannel holds no more fragments than a packet has room for. -/
theorem filled_few {self : NetChannel} (hb : Bookkeeping self) {n : Nat}
    (h : self.maxFragments < n) (k : Fin MAX_SUBCHANNELS) :
    (self.filled.outgoingSubchannels k).numFragments 0 < n := by
  have hfew := (filled_keeps hb).few k
  rw [filled_maxFragments] at hfew
  exact Nat.lt_of_le_of_lt hfew h

/-- The rest of a packet, once its reliable section is written. -/
theorem writePacket_of_reliable [Crc] {self self' : NetChannel} {reliable : Option Section}
    (hout : self.outSequenceNr < 2 ^ 32) (hin : self.inSequenceNr < 2 ^ 32)
    (hwrite : writeOutgoingReliableData ⟨BitList.ofBytes self.headerBytes⟩ self =
      (.ok (reliable.isSome,
        ⟨BitList.ofBytes self.headerBytes ++ (reliable.map Section.bits).getD []⟩), self'))
    (messages : List Message) :
    writePacket messages self =
      if ∀ m ∈ messages, m.Writable then
        if self'.outSequenceNr + 1 < 2 ^ 32 then
          (.ok (self.packet reliable messages).bytes,
            { self' with outSequenceNr := self'.outSequenceNr + 1 })
        else (.panic, self')
      else (.err .unhandledMessageForWrite, self') := by
  have hheader := writeHeader_eq hout hin
  unfold writePacket
  simp only [Method.get_bind, hheader, Method.lift_bind_ok]
  rw [Method.bind_ok hwrite]
  by_cases hms : ∀ m ∈ messages, m.Writable
  · have hdvd : 8 ∣ (BitList.ofBytes self.headerBytes).length := by simp
    have hbuffer : BitList.toBytes (BitList.align (BitList.ofBytes self.headerBytes ++
        (reliable.map Section.bits).getD [] ++ Message.bitsAll messages)) =
        self.headerBytes ++ BitList.toBytes
          (BitList.align (self.packet reliable messages).body) := by
      rw [List.append_assoc, BitList.align_append hdvd, BitList.toBytes_ofBytes_append]
      rfl
    have hfinish := finishPacket_eq self reliable messages
    simp only [Packet.flags, packet] at hfinish
    simp only [Message.writeAll_eq hms, BitWriter.byteAlign_eq, BitWriter.buffer_eq, hbuffer,
      Method.lift_bind_ok, Method.get_bind, if_pos hms]
    by_cases hnext : self'.outSequenceNr + 1 < 2 ^ 32
    · simp only [Outcome.add32_of_lt hnext, Method.lift_bind_ok, Method.modify_bind,
        Method.pure_apply, if_pos hnext]
      exact Prod.ext (congrArg Outcome.ok hfinish) rfl
    · have hpanic : (Outcome.add32 self'.outSequenceNr 1 : Result Nat) = .panic := if_neg hnext
      simp only [hpanic, Method.lift_bind_panic, if_neg hnext]
  · simp only [Message.writeAll_of_not_writable hms, Method.lift_bind_err, if_neg hms]

/-- What a channel in order does to write a packet. -/
theorem writePacket_eq [Crc] {self : NetChannel} (hb : Bookkeeping self)
    (hfew : ∀ k, (self.filled.outgoingSubchannels k).numFragments 0 < 8)
    (hout : self.outSequenceNr < 2 ^ 32)
    (hin : self.inSequenceNr < 2 ^ 32) (messages : List Message) :
    ∃ reliable, Carries self.filled reliable ∧ writePacket messages self =
      if Oversized self.configuration.server.maxReliablePacketSize reliable
        then (.panic, self.filled)
      else if ∀ m ∈ messages, m.Writable then
        if self.outSequenceNr + 1 < 2 ^ 32 then
          (.ok (self.packet reliable messages).bytes,
            { self.filled.sent reliable with outSequenceNr := self.outSequenceNr + 1 })
        else (.panic, self.filled.sent reliable)
      else (.err .unhandledMessageForWrite, self.filled.sent reliable) := by
  cases hfind : self.filled.findSubchannel .waitingToSend with
  | none =>
      have hwrite := writeOutgoingReliableData_of_none hb hfind ⟨BitList.ofBytes self.headerBytes⟩
      refine ⟨none, hfind, ?_⟩
      rw [if_neg (by simp [Oversized])]
      rw [← filled_outSequenceNr self]
      refine writePacket_of_reliable hout hin ?_ messages
      simpa using hwrite
  | some k =>
      have hfilled := filled_keeps hb
      obtain ⟨s, rfl, hcarries⟩ := exists_section hfilled (hfew k) hfind
      refine ⟨some s, hcarries, ?_⟩
      obtain ⟨-, ⟨stream, queue, hqueue, hdata⟩, hstart, hnum⟩ := hcarries
      have hwrite := writeOutgoingReliableData_of_some hb hfind hqueue
        ⟨BitList.ofBytes self.headerBytes⟩
      rw [← hstart, ← hnum, writeFragment_eq hdata] at hwrite
      by_cases hover : Oversized self.configuration.server.maxReliablePacketSize (some s)
      · rw [if_pos (show _ ∧ _ from hover)] at hwrite
        rw [if_pos hover, writePacket]
        simp only [Method.get_bind, writeHeader_eq hout hin, Method.lift_bind_ok]
        rw [Method.bind_panic hwrite]
      · rw [if_neg (show ¬ (_ ∧ _) from hover)] at hwrite
        have hsection : writeOutgoingReliableData ⟨BitList.ofBytes self.headerBytes⟩ self =
            (.ok ((some s).isSome, ⟨BitList.ofBytes self.headerBytes ++
              ((some s).map Section.bits).getD []⟩), self.filled.sent (some s)) := by
          rw [hwrite]
          simp [Section.bits, sent]
        rw [if_neg hover, ← filled_outSequenceNr self]
        exact writePacket_of_reliable hout hin hsection messages

/-! ## Reading a header -/

/-- The fields of a packet are read back. -/
theorem readHeaderFields_bytes [Crc] {self : NetChannel} {p : Packet}
    (hsequence : p.sequence < 2 ^ 32)
    (hack : p.sequenceAck < 2 ^ 32) (hchallenge : p.challenge = self.challenge) :
    readHeaderFields { data := p.bytes, pos := 0 } p.bytes self =
      (.ok ((p.sequence, p.sequenceAck, p.flags, p.reliableState.toNat, 0),
        { data := p.bytes, pos := 128 }), { self with hasSeenChallenge := true }) := by
  have hr := p.rest_bytes
  have hchecksum := calculateChecksum_lt p.checked
  have hflags : PacketFlags.fromBitsTruncate p.flags.toNat = p.flags := by
    unfold Packet.flags
    split <;> decide
  have hchoked : p.flags.contains PACKET_FLAG_CHOKED = false := by
    unfold Packet.flags
    split <;> decide
  have hhas : p.flags.contains PACKET_FLAG_CHALLENGE = true := by
    unfold Packet.flags
    split <;> decide
  -- the checksum field ends at bit 88
  let r : BitReader := { data := p.bytes, pos := 88 }
  have haligned : (Outcome.assert (r.positionInBits % 8 = 0) : Result Unit) = .ok () :=
    Outcome.assert_of _ (by simp [r])
  have hinside :
      (Outcome.assert (r.positionInBits / 8 ≤ p.bytes.length) : Result Unit) = .ok () := by
    refine Outcome.assert_of _ ?_
    rw [BitReader.positionInBits_eq, Packet.length_bytes]
    simp only [r]
    omega
  have hdrop : p.bytes.drop (r.positionInBits / 8) = p.checked := by
    rw [BitReader.positionInBits_eq, Packet.bytes]
    exact List.drop_left' (by simp [r])
  have h₁ := Reads.readIn (ε := Error) hsequence _ _ hr
  have hr₁ := BitReader.rest_skip_of_append hr
  have h₂ := Reads.readIn (ε := Error) hack _ _ hr₁
  have hr₂ := BitReader.rest_skip_of_append hr₁
  have h₃ := Reads.readIn (ε := Error) p.flags.isLt _ _ hr₂
  have hr₃ := BitReader.rest_skip_of_append hr₂
  have h₄ := Reads.readIn (ε := Error) hchecksum _ _ hr₃
  have hr₄ := BitReader.rest_skip_of_append hr₃
  have h₅ := Reads.readIn (ε := Error) p.reliableState.isLt _ _ hr₄
  have hr₅ := BitReader.rest_skip_of_append hr₄
  have h₆ := Reads.readIn (ε := Error) p.challenge.isLt _ _ hr₅
  simp only [BitList.length_ofNat, BitReader.skip, Nat.reduceAdd] at h₁ h₂ h₃ h₄ h₅ h₆
  unfold readHeaderFields
  simp only [h₁, h₂, h₃, h₄, Method.lift_bind_ok]
  simp only [r] at haligned hinside hdrop
  rw [haligned, Method.lift_bind_ok, hinside, Method.lift_bind_ok, hdrop]
  simp only [h₅, Method.lift_bind_ok, hflags, hchoked, hhas, ne_eq, not_true_eq_false, if_false,
    if_true, Bool.false_eq_true]
  simp only [h₆, Method.lift_bind_ok, Method.get_bind, hchallenge, not_true_eq_false, if_false,
    Method.modify_bind, Method.pure_apply]

/-- The header of a packet with the right challenge is accepted exactly as far
as its sequence number is. -/
theorem readHeader_bytes [Crc] {self : NetChannel} {p : Packet} (hsequence : p.sequence < 2 ^ 32)
    (hack : p.sequenceAck < 2 ^ 32) (hchallenge : p.challenge = self.challenge) :
    readHeader { data := p.bytes, pos := 0 } p.bytes self =
      (do acceptSequence p.sequence p.sequenceAck p.reliableState.toNat 0
          pure (p.flags, { data := p.bytes, pos := 128 }) : Method NetChannel Error _)
        { self with hasSeenChallenge := true } :=
  Method.bind_ok (readHeaderFields_bytes hsequence hack hchallenge)

omit [BitstreamIo] in
/-- A sequence number without choked packets is refused, or the subchannels
look at the acknowledgement. -/
theorem acceptSequence_eq {sequence : Nat} (hsequence : sequence < 2 ^ 32) (sequenceAck : Nat)
    (acked : BitVec 8) (self : NetChannel) :
    acceptSequence sequence sequenceAck acked.toNat 0 self =
      if sequence ≤ self.inSequenceNr then
        (.err (.unexpectedSequence sequence self.inSequenceNr), self)
      else if self.configuration.server.maxPacketsDropped < sequence - (self.inSequenceNr + 1) then
        (.err (.tooManyPacketsDropped (sequence - (self.inSequenceNr + 1))
          self.configuration.server.maxPacketsDropped), self)
      else
        (do updateOutgoingSubchannels sequenceAck acked
            modify fun self =>
              { self with inSequenceNr := sequence, outSequenceNrAck := sequenceAck }
            popCompletedOutgoingTransfers : Method NetChannel Error Unit) self := by
  unfold acceptSequence
  simp only [Method.get_bind]
  split
  case isTrue => rfl
  case isFalse hfresh =>
    simp only [Outcome.add32_of_lt (show self.inSequenceNr + 0 < 2 ^ 32 by omega),
      Outcome.add32_of_lt (show self.inSequenceNr + 0 + 1 < 2 ^ 32 by omega),
      Outcome.checkedSub_of_le (show self.inSequenceNr + 0 + 1 ≤ sequence by omega),
      Method.lift_bind_ok, BitVec.ofNat_toNat, BitVec.setWidth_eq, gt_iff_lt]
    simp only [Nat.add_zero]
    split <;> rfl

end NetChannel

end QuickplayServer
