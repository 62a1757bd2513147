import QuickplayServer.Net.Filling
import QuickplayServer.Net.Wire

/-!
# QuickplayServer.Net.Writable

When a packet can be written.

A transfer that fits one packet is sent as a single block, and the sender
asserts that it is shorter than `max_reliable_packet_size`.  A transfer of
exactly that size passes the one test and fails the other.  Its size is also
written into 26 bits if it is sent in several blocks.  Such a transfer cannot be
sent once it has come to the front (`writePacket_ne_ok`).
-/

namespace QuickplayServer

namespace NetChannel

/-- What is at the front after a subchannel was filled is from the queue before. -/
theorem exists_of_filled {self : NetChannel} (hb : Bookkeeping self)
    {stream : OutgoingReliableData} (h : stream ∈ self.filled.outgoingReliableData 0) :
    ∃ old ∈ self.outgoingReliableData 0, old.data = stream.data := by
  have hlater :=
    (fillOutgoingSubchannel_sends.of_eq (fillOutgoingSubchannel_eq hb)).later.queues 0
  exact List.mem_map.mp (hlater.subset (List.mem_map_of_mem h))

/-- A subchannel holds no more fragments than a transfer has. -/
theorem filled_few_of_short {self : NetChannel} (hb : Bookkeeping self) {n : Nat} (hn : 0 < n)
    (h : ∀ stream ∈ self.outgoingReliableData 0, fragments stream.data.length < n)
    (k : Fin MAX_SUBCHANNELS) : (self.filled.outgoingSubchannels k).numFragments 0 < n := by
  have hfilled := filled_keeps hb
  by_cases hfree : (self.filled.outgoingSubchannels k).state = .free
  · rw [hfilled.free_empty k hfree]
    exact hn
  · obtain ⟨stream, queue, hqueue⟩ := hfilled.front hfree
    obtain ⟨old, hold, hdata⟩ := exists_of_filled hb (hqueue ▸ List.mem_cons_self)
    have hshort := h old hold
    rw [hdata] at hshort
    have hend := hfilled.end_le hqueue hfree
    have htotal := hfilled.front_total hqueue
    omega

/-- A single block is shorter than a packet may be, unless it is as long. -/
theorem not_oversized {self : NetChannel} (hb : Bookkeeping self)
    (hsize : ∀ stream ∈ self.outgoingReliableData 0,
      stream.data.length ≠ self.configuration.server.maxReliablePacketSize)
    {reliable : Option Section} (hcarries : Carries self.filled reliable) :
    ¬ Oversized self.configuration.server.maxReliablePacketSize reliable := by
  cases reliable with
  | none => exact id
  | some s =>
      obtain ⟨-, ⟨stream, queue, hqueue, hdata⟩, -, hnum⟩ := hcarries
      rintro ⟨hsingle, hover⟩
      have hfew := (filled_keeps hb).few s.subchannel
      obtain ⟨old, hold, heq⟩ := exists_of_filled hb (hqueue ▸ List.mem_cons_self)
      have hne := hsize old hold
      rw [heq, hdata] at hne
      rw [← hnum, filled_maxFragments, maxFragments, hsingle, fragments_eq, FRAGMENT_SIZE_eq]
        at hfew
      omega

section

variable [BitstreamIo] [Crc]

/-- A channel in order, whose transfers are all sendable, writes a packet of
writable messages as long as it has a sequence number left. -/
theorem writePacket_ok {self : NetChannel} (hb : Bookkeeping self)
    (hfew : ∀ k, (self.filled.outgoingSubchannels k).numFragments 0 < 8)
    (hsize : ∀ stream ∈ self.outgoingReliableData 0,
      stream.data.length ≠ self.configuration.server.maxReliablePacketSize)
    (hnumbered : self.Numbered) (hnext : self.outSequenceNr + 1 < 2 ^ 32) {messages : List Message}
    (hmessages : ∀ m ∈ messages, m.Writable) :
    ∃ reliable, Carries self.filled reliable ∧ writePacket messages self =
      (.ok (self.packet reliable messages).bytes,
        { self.filled.sent reliable with outSequenceNr := self.outSequenceNr + 1 }) := by
  obtain ⟨reliable, hcarries, hwrite⟩ :=
    writePacket_eq hb hfew hnumbered.out hnumbered.inc messages
  rw [if_neg (not_oversized hb hsize hcarries), if_pos hmessages, if_pos hnext] at hwrite
  exact ⟨reliable, hcarries, hwrite⟩

/-- With the default configuration, in every run in which every queued transfer
has fewer than 2^26 bytes and not exactly 1024, a packet can be written in
every state that has a sequence number left. -/
theorem run_writePacket_ok {challenge : BitVec 32} {calls : List Call} {self : NetChannel}
    (hcalls : ∀ call ∈ calls, call.Queues fun data => data.length < 2 ^ 26 ∧ data.length ≠ 1024)
    (hrun : run (new challenge Configuration.loadDefault) calls = some self)
    (hnext : self.outSequenceNr + 1 < 2 ^ 32) :
    ∃ bytes self', writePacket [] self = (.ok bytes, self') := by
  have hsmall : ∀ call ∈ calls, call.Small :=
    fun call hcall => (hcalls call hcall).mono fun _ h => h.1
  obtain ⟨hqueued, hconfiguration⟩ := run_queued hcalls hrun
  have hb : Bookkeeping self := run_books (by decide) hsmall hrun
  have hfew : self.maxFragments < 8 := by
    rw [maxFragments, hconfiguration]
    decide
  obtain ⟨reliable, -, hwrite⟩ := writePacket_ok hb (filled_few hb hfew)
    (fun stream hstream => by rw [hconfiguration]; exact (hqueued.messages stream hstream).2)
    hqueued.numbered hnext (show ∀ m ∈ ([] : List Message), m.Writable by simp)
  exact ⟨_, _, hwrite⟩

end

theorem run_writePacket_ok_print : ∃ self,
    run fresh [.queueReliableMessages [.print ⟨"x"⟩], .writePacket []] = some self ∧
      ∃ bytes self', writePacket [] self = (.ok bytes, self') := by
  have hnr : (run fresh [.queueReliableMessages [.print ⟨"x"⟩], .writePacket []]).map
      (·.outSequenceNr) = some 2 := by decide +kernel
  obtain ⟨self, hrun, hself⟩ := Option.map_eq_some_iff.mp hnr
  have hencode : encodeMessages [.print ⟨"x"⟩] = .ok [7, 30, 0] := by decide +kernel
  exact ⟨self, hrun,
    run_writePacket_ok (by simp [Call.Queues, hencode]) hrun (by rw [hself]; decide)⟩

/-- A text of 1022 bytes, which is encoded in exactly 1024. -/
def longPrint : Message := .print ⟨String.ofList (List.replicate 1022 'x')⟩

/-- A transfer of exactly 1024 bytes is queued, and panics when it is to be sent. -/
theorem writePacket_longPrint_panics : ∃ self,
    run fresh [.queueReliableMessages [longPrint]] = some self ∧ self.outSequenceNr + 1 < 2 ^ 32 ∧
      (writePacket [] self).1 = .panic := by
  have hpanic : (run fresh [.queueReliableMessages [longPrint]]).map
      (fun self => (self.outSequenceNr, (writePacket [] self).1)) = some (1, .panic) := by
    decide +kernel
  obtain ⟨self, hrun, hself⟩ := Option.map_eq_some_iff.mp hpanic
  obtain ⟨hnr, hwrite⟩ := Prod.mk.inj hself
  exact ⟨self, hrun, by rw [hnr]; decide, hwrite⟩

/-! ## Transfers that cannot be sent -/

section

variable [BitstreamIo] [Crc]

omit [Crc] in
/-- A fragment can be written if it is a single block below the limit of a packet,
or not the start of a transfer that is too long for the field of its size. -/
theorem writeFragment_bounds {configuration : Configuration} {startFragment numFragments : Nat}
    {stream : OutgoingReliableData} {writer writer' : BitWriter}
    (hsize : stream.data.length + 256 < 2 ^ 32)
    (hwrite : writeFragment configuration startFragment numFragments stream writer = .ok writer') :
    (numFragments = fragments stream.data.length →
      stream.data.length < configuration.server.maxReliablePacketSize) ∧
    (numFragments ≠ fragments stream.data.length → startFragment = 0 →
      stream.data.length < 2 ^ 26) := by
  have htotal : stream.totalFragments = .ok (fragments stream.data.length) :=
    bytesToFragments_of_lt hsize
  obtain ⟨w₁, -, hwrite⟩ := Outcome.bind_eq_ok.mp hwrite
  obtain ⟨offset, hoffset, hwrite⟩ := Outcome.bind_eq_ok.mp hwrite
  obtain ⟨fullLength, -, hwrite⟩ := Outcome.bind_eq_ok.mp hwrite
  obtain ⟨packetTotalFragments, -, hwrite⟩ := Outcome.bind_eq_ok.mp hwrite
  rw [htotal, Outcome.ok_bind] at hwrite
  obtain ⟨length, -, hwrite⟩ := Outcome.bind_eq_ok.mp hwrite
  obtain ⟨w₂, -, hwrite⟩ := Outcome.bind_eq_ok.mp hwrite
  obtain ⟨w₃, hheader, -⟩ := Outcome.bind_eq_ok.mp hwrite
  by_cases hsingle : numFragments = fragments stream.data.length
  · refine ⟨fun _ => ?_, fun hmulti => absurd hsingle hmulti⟩
    rw [decide_eq_true hsingle, if_pos rfl] at hheader
    obtain ⟨_, hwhole, hheader⟩ := Outcome.bind_eq_ok.mp hheader
    obtain ⟨_, hfits, -⟩ := Outcome.bind_eq_ok.mp hheader
    rw [← show length = stream.data.length from Outcome.assert_eq_ok.mp hwhole]
    exact Outcome.assert_eq_ok.mp hfits
  · refine ⟨fun h => absurd h hsingle, fun _ hstart => ?_⟩
    have hzero : offset = 0 := by
      obtain ⟨-, rfl⟩ := Outcome.mul32_eq_ok.mp hoffset
      rw [hstart, Nat.zero_mul]
    rw [decide_eq_false hsingle, if_neg (by decide)] at hheader
    obtain ⟨w₄, -, hheader⟩ := Outcome.bind_eq_ok.mp hheader
    obtain ⟨w₅, -, hheader⟩ := Outcome.bind_eq_ok.mp hheader
    rw [if_pos hzero] at hheader
    obtain ⟨w₆, -, hheader⟩ := Outcome.bind_eq_ok.mp hheader
    obtain ⟨w₇, -, hheader⟩ := Outcome.bind_eq_ok.mp hheader
    exact (BitWriter.writeOut_eq_ok.mp hheader).1

/-- A packet that is written holds the fragments of the subchannel that waits to be sent. -/
theorem writeFragment_of_writePacket {self filled self' : NetChannel} {messages : List Message}
    {bytes : List UInt8} {k : Fin MAX_SUBCHANNELS} {stream : OutgoingReliableData}
    {queue : List OutgoingReliableData}
    (hwrite : writePacket messages self = (.ok bytes, self'))
    (hfill : fillOutgoingSubchannel self = (.ok (), filled))
    (hfind : filled.findSubchannel .waitingToSend = some k)
    (hqueue : filled.outgoingReliableData 0 = stream :: queue) :
    ∃ writer writer', writeFragment filled.configuration
      ((filled.outgoingSubchannels k).startFragment 0)
      ((filled.outgoingSubchannels k).numFragments 0) stream writer = .ok writer' := by
  unfold writePacket at hwrite
  rw [Method.get_bind] at hwrite
  obtain ⟨w₁, -, hwrite⟩ := Method.lift_bind_eq_ok.mp hwrite
  obtain ⟨reliable, mid, hreliable, -⟩ := Method.bind_eq_ok.mp hwrite
  rw [writeOutgoingReliableData, Method.bind_ok hfill, Method.get_bind, hfind] at hreliable
  obtain ⟨w₂, -, hreliable⟩ := Method.lift_bind_eq_ok.mp hreliable
  obtain ⟨w₃, mid', hstreams, -⟩ := Method.bind_eq_ok.mp hreliable
  rw [finRange_MAX_STREAMS, List.foldlM_cons] at hstreams
  obtain ⟨w₄, mid'', hstream, -⟩ := Method.bind_eq_ok.mp hstreams
  rw [writeStream, Method.get_bind, hqueue] at hstream
  obtain ⟨w₅, hfragment, -⟩ := Method.lift_bind_eq_ok.mp hstream
  exact ⟨w₂, w₅, hfragment⟩

/-- No packet is written by a channel that panics when it fills a subchannel. -/
theorem writePacket_ne_ok_of_fill {self : NetChannel}
    (hpanic : (fillOutgoingSubchannel self).1 = .panic) (messages : List Message)
    (bytes : List UInt8) : (writePacket messages self).1 ≠ .ok bytes := by
  intro hok
  have hwrite : writePacket messages self = (.ok bytes, (writePacket messages self).2) :=
    Prod.ext hok rfl
  unfold writePacket at hwrite
  rw [Method.get_bind] at hwrite
  obtain ⟨w₁, -, hwrite⟩ := Method.lift_bind_eq_ok.mp hwrite
  obtain ⟨reliable, mid, hreliable, -⟩ := Method.bind_eq_ok.mp hwrite
  obtain ⟨_, filled, hfill, -⟩ := Method.bind_eq_ok.mp hreliable
  rw [hfill] at hpanic
  cases hpanic

/-- No packet can be written when a transfer has come to the front that fills
the room of a packet to the last byte, or that is too long for the field of its
size. -/
theorem writePacket_ne_ok {self : NetChannel} {stream : OutgoingReliableData}
    {queue : List OutgoingReliableData}
    (hfree : ∀ k, (self.outgoingSubchannels k).state = .free)
    (hqueue : self.outgoingReliableData 0 = stream :: queue)
    (hfile : self.outgoingReliableData 1 = []) (hunsent : stream.sentFragments = 0)
    (hroom : 256 ≤ self.configuration.server.maxReliablePacketSize)
    (hsize : stream.data.length = self.configuration.server.maxReliablePacketSize ∧
        256 ∣ stream.data.length ∨
      2 ^ 26 ≤ stream.data.length ∧ self.configuration.server.maxReliablePacketSize < 2 ^ 26)
    (messages : List Message) (bytes : List UInt8) :
    (writePacket messages self).1 ≠ .ok bytes := by
  have hfind : self.findSubchannel .free = some 0 :=
    findSubchannel_of_lowest (hfree 0) fun l hl => absurd hl (Nat.not_lt_zero l)
  have hlt : stream.sentFragments < fragments stream.data.length := by
    rw [hunsent, fragments_eq]
    omega
  by_cases hcounted : stream.data.length + 256 < 2 ^ 32
  · intro hok
    have hwrite : writePacket messages self = (.ok bytes, (writePacket messages self).2) :=
      Prod.ext hok rfl
    have hfill := fillOutgoingSubchannel_of_lt hfind hqueue hfile hcounted hlt
    have hwaiting : (self.fill 0 stream queue (min self.maxFragments
        (fragments stream.data.length - stream.sentFragments))).findSubchannel .waitingToSend =
        some 0 := by
      refine findSubchannel_of_lowest ?_ fun l hl => absurd hl (Nat.not_lt_zero l)
      rw [fill_outgoingSubchannels, Function.update_self]
    obtain ⟨writer, writer', hfragment⟩ := writeFragment_of_writePacket hwrite hfill hwaiting
      (by rw [fill_outgoingReliableData, Function.update_self])
    rw [fill_outgoingSubchannels, Function.update_self] at hfragment
    dsimp only at hfragment
    rw [Function.update_self, Function.update_self, hunsent, Nat.sub_zero] at hfragment
    obtain ⟨hsingle, hmulti⟩ := writeFragment_bounds hcounted hfragment
    have hmax : self.maxFragments = self.configuration.server.maxReliablePacketSize / 256 := rfl
    have hconfiguration : (self.fill 0 stream queue
        (min self.maxFragments (fragments stream.data.length))).configuration =
        self.configuration := rfl
    rw [hmax, fragments_eq] at hsingle hmulti
    obtain ⟨hexact, hdvd⟩ | ⟨hlong, hshort⟩ := hsize
    · exact absurd (hsingle (by omega)) (by rw [hexact]; exact Nat.lt_irrefl _)
    · exact absurd (hmulti (by omega) rfl) (Nat.not_lt.mpr hlong)
  · exact writePacket_ne_ok_of_fill
      (fillOutgoingSubchannel_of_le hfind hqueue (Nat.not_lt.mp hcounted) hlt) messages bytes

/-- With the default configuration no transfer of 1024 bytes, and none of 2^26
bytes and more, can be sent when it has come to the front. -/
theorem run_writePacket_ne_ok {challenge : BitVec 32} {calls : List Call} {self : NetChannel}
    (hrun : run (new challenge Configuration.loadDefault) calls = some self)
    {stream : OutgoingReliableData} {queue : List OutgoingReliableData}
    (hfree : ∀ k, (self.outgoingSubchannels k).state = .free)
    (hqueue : self.outgoingReliableData 0 = stream :: queue) (hunsent : stream.sentFragments = 0)
    (hsize : stream.data.length = 1024 ∨ 2 ^ 26 ≤ stream.data.length) (messages : List Message)
    (bytes : List UInt8) : (writePacket messages self).1 ≠ .ok bytes := by
  have hany : ∀ call ∈ calls, call.Queues fun _ => True := fun call _ => by
    cases call <;> simp [Call.Queues]
  have hconfiguration := (run_queued hany hrun).2
  have hlimit : self.configuration.server.maxReliablePacketSize = 1024 := by
    rw [hconfiguration]
    rfl
  refine writePacket_ne_ok hfree hqueue (run_file hrun) hunsent (by omega) ?_ messages bytes
  rw [hlimit]
  omega

end

end NetChannel

end QuickplayServer
