import QuickplayServer.Net.Arrival
import QuickplayServer.Net.Calls
import QuickplayServer.Net.Handover
import QuickplayServer.Net.Header
import QuickplayServer.Net.WriteFrame

/-!
# QuickplayServer.Net.Receive

The reliable part of a packet, for every packet and every channel.

`sectionsOf` are the stream sections of a packet that a channel gets to see.
They decide what becomes of the packet behind its header: it panics exactly
when the arithmetic on one of them overflows (`fragmentsInRange_iff`).
-/

namespace QuickplayServer

open BitReader (Advances)
open Method (Keeps)

section

variable [BitstreamIo]

/-- The fields of a section are read from the front of what is left. -/
theorem SectionHeader.read_advances (reader : BitReader) :
    Advances (SectionHeader.read reader) reader := by
  refine Advances.bind Advances.readBit fun isMultiBlock reader => Advances.ite ?_ ?_
  · refine Advances.bind (Advances.readIn _) fun startFragment reader => ?_
    refine Advances.bind (Advances.readIn _)
      fun numFragments reader => Advances.ite ?_ (Advances.ok _)
    refine Advances.bind Advances.readBit fun isFile reader => Advances.ite (Advances.err _) ?_
    refine Advances.bind Advances.readBit
      fun isCompressed reader => Advances.ite (Advances.err _) ?_
    exact Advances.bind (Advances.readIn _) fun bytes reader => Advances.ok _
  · refine Advances.bind Advances.readBit
      fun isCompressed reader => Advances.ite (Advances.err _) ?_
    exact Advances.bind (readVarint32_advances reader) fun bytes reader => Advances.ok _

/-- The fields of a header are read from the front of the packet. -/
theorem Header.read_advances [Crc] (reader : BitReader) (packet : List UInt8) :
    Advances (Header.read reader packet) reader := by
  refine Advances.bind (Advances.readIn _) fun sequence reader => ?_
  refine Advances.bind (Advances.readIn _) fun sequenceAck reader => ?_
  refine Advances.bind (Advances.readIn _) fun bits reader => ?_
  refine Advances.bind (Advances.readIn _) fun expectedChecksum reader => ?_
  refine Advances.lift fun _ => Advances.lift fun _ => Advances.ite (Advances.err _) ?_
  refine Advances.bind (Advances.readIn _) fun reliableState reader => ?_
  refine Advances.bind (Advances.ite (Advances.readIn _) (Advances.ok _)) fun nChoked reader => ?_
  refine Advances.ite ?_ (Advances.ok _)
  exact Advances.bind (Advances.readIn _) fun challenge reader => Advances.ok _

end

/-- A section that fits ends within the packet. -/
theorem Arrival.behind_advances {arrival : Arrival} {behind : BitReader}
    (h : arrival.behind = some behind) : arrival.reader.Before behind := by
  obtain ⟨receivedData, -, h⟩ := Option.bind_eq_some_iff.mp h
  split at h
  · rename_i hfits
    obtain rfl := Option.some.inj h
    exact BitReader.before_skip hfits.2
  · cases h

namespace NetChannel

section

variable [BitstreamIo]

/-- By induction on the streams: the sections are read one behind the other. -/
theorem arrivals_advances {self : NetChannel} {streams : List (Fin MAX_STREAMS)}
    {reader behind : BitReader}
    (h : (self.arrivals streams reader).2 = some behind) : reader.Before behind := by
  induction streams generalizing reader with
  | nil =>
      obtain rfl := Option.some.inj h
      exact BitReader.Before.refl _
  | cons i streams ih =>
      rw [arrivals] at h
      split at h
      case h_1 reader' hbit => exact (Advances.readBit _ _ hbit).trans (ih h)
      case h_2 reader' hbit =>
        split at h
        case h_1 header reader'' hread =>
          have hfields := (Advances.readBit _ _ hbit).trans
            (SectionHeader.read_advances reader' header reader'' hread)
          dsimp only at h
          split at h
          case h_1 next hnext => exact hfields.trans ((Arrival.behind_advances hnext).trans (ih h))
          case h_2 => cases h
        case h_2 => cases h
      case h_3 => cases h

/-! ## The stream sections of a packet -/

/-- The stream sections behind the index of the subchannel. -/
def sections (self : NetChannel) (reader : BitReader) : List Arrival × Option BitReader :=
  match (reader.readIn 3 : Result _) with
  | .ok (_, reader) => self.arrivals (List.finRange MAX_STREAMS) reader
  | _ => ([], none)

/-- The stream sections of a packet: none unless its header is accepted. -/
def sectionsOf [Crc] (self : NetChannel) (packet : List UInt8) : List Arrival × Option BitReader :=
  match (readHeader { data := packet, pos := 0 } packet self).1 with
  | .ok (flags, reader) =>
      if flags.contains PACKET_FLAG_RELIABLE then self.sections reader else ([], some reader)
  | _ => ([], none)

/-- The part of `read_packet` behind the stream sections: the packet is
acknowledged, and the transfers that are complete are decoded. -/
def finishSections (subchannelBit : Nat) (behind : BitReader) :
    Method NetChannel Error (List Message × BitReader) := do
  modify fun self =>
    { self with inReliableState := self.inReliableState ^^^ (1#8 <<< subchannelBit) }
  let messages ← readAllReliableMessages (List.finRange MAX_STREAMS) []
  pure (messages, behind)

/-- What becomes of a reliable section: one of its stream sections overflows or
the last one is refused, or all are taken and the packet is acknowledged. -/
inductive SectionRead (channel : NetChannel) (sections : List Arrival) :
    Option BitReader → Outcome Error (List Message × BitReader) × NetChannel → Prop where
  | overflow {last : Option BitReader} {later : NetChannel}
      (h : ∃ arrival ∈ sections, arrival.Overflows) :
      SectionRead channel sections last (.panic, later)
  | refused {e : Error} {later : NetChannel}
      (hno : ∀ arrival ∈ sections, ¬ arrival.Overflows) (h : Arrived channel sections later) :
      SectionRead channel sections none (.err e, later)
  | taken {behind : BitReader} {subchannelBit : Nat} {later : NetChannel}
      (hno : ∀ arrival ∈ sections, ¬ arrival.Overflows) (h : Arrived channel sections later)
      (hbit : subchannelBit < 2 ^ 3) :
      SectionRead channel sections (some behind) (finishSections subchannelBit behind later)

/-- Reading the reliable part does what the sections of the packet say: it
overflows, is refused, or is taken. -/
theorem readReliableSection_read (reader : BitReader) (self : NetChannel) :
    SectionRead self (self.sections reader).1 (self.sections reader).2
      (readReliableSection reader self) := by
  unfold sections readReliableSection
  cases hbit : (reader.readIn 3 : Result _) with
  | err e => exact .refused nofun (Arrived.nil self)
  | panic => exact absurd hbit (BitReader.readIn_ne_panic 3 reader)
  | ok x =>
      obtain ⟨subchannelBit, reader'⟩ := x
      dsimp only
      rw [Method.lift_bind_ok, Method.bind_apply]
      have hsettles := readStreams_settles (List.nodup_finRange MAX_STREAMS) reader' self
      revert hsettles
      generalize readStreams (List.finRange MAX_STREAMS) reader' self = read
      generalize (self.arrivals (List.finRange MAX_STREAMS) reader').2 = last
      intro hsettles
      cases hsettles with
      | overflow h => exact .overflow h
      | refused hno h => exact .refused hno h
      | taken hno h => exact .taken hno h (BitReader.readIn_eq_ok.mp hbit).1

/-- The reader behind the sections is behind the one in front of them. -/
theorem sections_advances {self : NetChannel} {reader behind : BitReader}
    (h : (self.sections reader).2 = some behind) : reader.Before behind := by
  unfold sections at h
  split at h
  case h_1 hbit => exact (Advances.readIn 3 _ _ hbit).trans (arrivals_advances h)
  case h_2 => cases h

/-- The slot that a section finds is the one of its stream. -/
theorem mem_sections {self : NetChannel} {reader : BitReader} {arrival : Arrival}
    (h : arrival ∈ (self.sections reader).1) :
    arrival.slot = self.incomingReliableData arrival.stream := by
  unfold sections at h
  split at h
  case h_1 => exact (mem_arrivals h).2
  case h_2 => cases h

/-- The sections depend on the packet and the transfers only. -/
theorem sections_congr {self self' : NetChannel}
    (h : self.incomingReliableData = self'.incomingReliableData) (reader : BitReader) :
    self.sections reader = self'.sections reader := by
  have harrivals : ∀ reader, self.arrivals (List.finRange MAX_STREAMS) reader =
      self'.arrivals (List.finRange MAX_STREAMS) reader := fun reader =>
    arrivals_congr (fun i _ => by rw [h]) reader
  simp only [sections, harrivals]

end

/-! ## Behind the header -/

/-- The channel has received and acknowledged the same. -/
def SameReceived (channel later : NetChannel) : Prop :=
  later.incomingReliableData = channel.incomingReliableData ∧
    later.inReliableState = channel.inReliableState

/-- What changes the sending side only leaves what was received. -/
theorem UpToSending.sameReceived {channel later : NetChannel} (h : UpToSending channel later) :
    SameReceived channel later := by
  unfold UpToSending at h
  rw [h]
  exact ⟨rfl, rfl⟩

/-- What is left alone twice is left alone. -/
theorem SameReceived.trans {a b c : NetChannel} (h : SameReceived a b) (h' : SameReceived b c) :
    SameReceived a c := ⟨h'.1.trans h.1, h'.2.trans h.2⟩

/-- The part of `read_header` behind the challenge check leaves what was received. -/
theorem acceptSequence_sameReceived (first : NetChannel)
    (sequence sequenceAck reliableState nChoked : Nat) :
    Keeps (SameReceived first) (acceptSequence sequence sequenceAck reliableState nChoked) := by
  refine acceptSequence_keeps (fun _ _ hsends h => h.trans hsends.upToSending.sameReceived) ?_ _ _
  exact fun _ h => h

section Packets

variable [BitstreamIo] [Crc]

/-- A header has nothing to do with the transfers. -/
theorem readHeader_sameReceived (first : NetChannel) (reader : BitReader) (packet : List UInt8) :
    Keeps (SameReceived first) (readHeader reader packet) :=
  readHeader_keeps (fun _ _ h => h) (fun _ _ _ _ _ => acceptSequence_sameReceived first _ _ _ _)
    reader packet

/-- What becomes of a packet: its header is not accepted, or it is read on from
the channel that its header leaves. -/
inductive PacketRead (channel : NetChannel) (packet : List UInt8) :
    List Arrival × Option BitReader → Outcome Error (List Message) × NetChannel → Prop where
  | header {read : Outcome Error (List Message) × NetChannel}
      (hpanic :
        read.1 = .panic ↔ (readHeader { data := packet, pos := 0 } packet channel).1 = .panic)
      (hok : ∀ messages, read.1 ≠ .ok messages)
      (h : read.1 ≠ .panic → SameReceived channel read.2) :
      PacketRead channel packet ([], none) read
  | unreliable {reader : BitReader} {later : NetChannel}
      (hheader : (readHeader { data := packet, pos := 0 } packet channel).1 ≠ .panic)
      (h : SameReceived channel later) (hdata : reader.data = packet) (hb : reader.InBounds) :
      PacketRead channel packet ([], some reader) (readMessages reader packet.length [], later)
  | reliable {sections : List Arrival} {last : Option BitReader} {later : NetChannel}
      (hheader : (readHeader { data := packet, pos := 0 } packet channel).1 ≠ .panic)
      (h : SameReceived channel later)
      (hslots : ∀ arrival ∈ sections, arrival.slot = channel.incomingReliableData arrival.stream)
      (hbehind : ∀ behind, last = some behind → behind.data = packet ∧ behind.InBounds)
      {read : Outcome Error (List Message × BitReader) × NetChannel}
      (hread : SectionRead later sections last read) :
      PacketRead channel packet (sections, last)
        (do
          let (messages, reader) ← read.1
          readMessages reader packet.length messages, read.2)

/-- Every packet is of one of the kinds: it ends at its header, has no reliable
part, or has sections that are read. -/
theorem readPacket_read (packet : List UInt8) (self : NetChannel) :
    PacketRead self packet (self.sectionsOf packet) (readPacket packet self) := by
  have hsame := (readHeader_sameReceived self { data := packet, pos := 0 } packet).run ⟨rfl, rfl⟩
  rw [readPacket_eq_bind]
  unfold sectionsOf
  cases hheader : readHeader { data := packet, pos := 0 } packet self with
  | mk o mid =>
      rw [hheader] at hsame
      cases o with
      | err e =>
          rw [Method.bind_err hheader]
          refine .header ?_ nofun fun _ => hsame nofun
          simp [hheader]
      | panic =>
          rw [Method.bind_panic hheader]
          refine .header ?_ nofun fun h => absurd rfl h
          simp [hheader]
      | ok x =>
          obtain ⟨flags, reader⟩ := x
          obtain ⟨header, hread, -⟩ := readHeader_eq_ok hheader
          have hbefore := Header.read_advances _ packet header reader hread
          have hb := hbefore.inBounds (BitReader.inBounds_start packet)
          have hsame := hsame nofun
          have hpanic : (readHeader { data := packet, pos := 0 } packet self).1 ≠ .panic := by
            rw [hheader]
            exact nofun
          rw [Method.bind_ok hheader, readBody]
          dsimp only
          by_cases hreliable : flags.contains PACKET_FLAG_RELIABLE = true
          · rw [if_pos hreliable, if_pos hreliable]
            have hsection := readReliableSection_read reader mid
            rw [sections_congr hsame.1] at hsection
            have hread : PacketRead self packet (self.sections reader) _ :=
              .reliable hpanic hsame (fun arrival hmem => mem_sections hmem) (fun behind hbehind =>
                ⟨(sections_advances hbehind).data.trans hbefore.data,
                  (sections_advances hbehind).inBounds hb⟩) hsection
            revert hread
            rw [Method.bind_apply]
            obtain ⟨o, later⟩ := readReliableSection reader mid
            cases o <;> exact id
          · rw [if_neg hreliable, if_neg hreliable]
            exact .unreliable hpanic hsame hbefore.data hb

end Packets

end NetChannel

/-! ## Stored transfers -/

/-- A transfer whose fragments can be counted, with room for its bytes. -/
structure IncomingReliableData.Sound (receivedData : IncomingReliableData) : Prop where
  filename : receivedData.filename = none
  bytes : receivedData.bytes + 256 < 2 ^ 32
  data : receivedData.data.length = receivedData.bytes

/-- Every transfer of the channel is sound. -/
def NetChannel.Sound (channel : NetChannel) : Prop :=
  ∀ i receivedData, channel.incomingReliableData i = some receivedData → receivedData.Sound

/-- A section that does not overflow leaves a sound transfer. -/
theorem Arrival.left_sound [BitstreamIo] {arrival : Arrival} (hno : ¬ arrival.Overflows)
    (hslot : ∀ receivedData, arrival.slot = some receivedData → receivedData.Sound)
    {receivedData : IncomingReliableData} (h : arrival.left = some receivedData) :
    receivedData.Sound := by
  obtain ⟨target, htarget, rfl⟩ := Option.map_eq_some_iff.mp h
  have hsize : ¬ 2 ^ 32 ≤ target.bytes + 256 := fun hsize => hno ⟨target, htarget, .size hsize⟩
  have hsound : target.Sound := by
    obtain hopens | ⟨-, hstored⟩ := Option.or_eq_some_iff.mp htarget
    · cases hheader : arrival.header with
      | singleBlock bytes =>
          rw [hheader] at hopens
          obtain rfl := Option.some.inj hopens
          exact ⟨rfl, by omega, List.length_replicate⟩
      | opening numFragments bytes =>
          rw [hheader] at hopens
          obtain rfl := Option.some.inj hopens
          exact ⟨rfl, by omega, List.length_replicate⟩
      | continuing startFragment numFragments =>
          rw [hheader] at hopens
          cases hopens
    · exact hslot target hstored
  split
  case isTrue hfits =>
    refine ⟨hsound.filename, hsound.bytes, ?_⟩
    have hbytes : (BitList.toBytes (arrival.reader.rest.take
        (8 * arrival.header.length target))).length = arrival.header.length target := by
      have hlen : (arrival.reader.rest.take (8 * arrival.header.length target)).length =
          8 * arrival.header.length target := by
        rw [List.length_take, Nat.min_eq_left hfits.2]
      rw [BitList.length_toBytes ⟨_, hlen⟩, hlen, Nat.mul_div_cancel_left _ (by decide)]
    exact (length_setSlice (by rw [hbytes]; exact hfits.1.2)).trans hsound.data
  case isFalse hfits =>
    unfold SectionHeader.torn
    split
    case isTrue hwithin =>
      refine ⟨hsound.filename, hsound.bytes, (length_setSlice ?_).trans hsound.data⟩
      rw [BitstreamIo.length_readBytesFailed, SectionHeader.slice, List.length_take,
        List.length_drop]
      have := hwithin.2
      omega
    case isFalse => exact hsound

namespace NetChannel

/-- A new channel has no incoming transfers, so they are sound. -/
theorem Sound.new (challenge : BitVec 32) (configuration : Configuration) :
    (NetChannel.new challenge configuration).Sound := nofun

/-- Whether the transfers are sound depends on the transfers only. -/
theorem Sound.congr {self self' : NetChannel} (h : self.Sound)
    (hsame : self'.incomingReliableData = self.incomingReliableData) : self'.Sound := by
  unfold Sound
  rw [hsame]
  exact h

section Packets

variable [BitstreamIo]

/-- Sections that do not overflow keep the transfers sound. -/
theorem Arrived.sound {self later : NetChannel} {sections : List Arrival}
    (h : Arrived self sections later) (hs : self.Sound)
    (hslots : ∀ arrival ∈ sections, arrival.slot = self.incomingReliableData arrival.stream)
    (hno : ∀ arrival ∈ sections, ¬ arrival.Overflows) : later.Sound := by
  intro i receivedData hslot
  by_cases hi : ∃ arrival ∈ sections, arrival.stream = i
  · obtain ⟨arrival, hmem, rfl⟩ := hi
    rw [h.left arrival hmem] at hslot
    refine Arrival.left_sound (hno arrival hmem) (fun stored hstored => ?_) hslot
    exact hs _ _ (hslots arrival hmem ▸ hstored)
  · rw [h.other i fun arrival hmem heq => hi ⟨arrival, hmem, heq⟩] at hslot
    exact hs i receivedData hslot

/-! ## Complete transfers -/

/-- There is no transfer in the slot, or its last fragment has not come. -/
def Incomplete (slot : Option IncomingReliableData) : Prop :=
  ∀ receivedData, slot = some receivedData →
  receivedData.ackedFragments < fragments receivedData.bytes

/-- The transfer in the slot has all of its fragments and no more, and is a
list of messages. -/
def Decodes (slot : Option IncomingReliableData) : Prop :=
  ∃ receivedData messages, slot = some receivedData ∧
    receivedData.ackedFragments = fragments receivedData.bytes ∧
    readMessages { data := receivedData.data, pos := 0 } receivedData.data.length [] = .ok messages

/-- A stream waits for fragments, hands its messages over or fails. -/
theorem readReliableMessages_cases {self : NetChannel} (hs : self.Sound) (i : Fin MAX_STREAMS)
    (messages : List Message) :
    Incomplete (self.incomingReliableData i) ∧
        readReliableMessages i messages self = (.ok messages, self) ∨
      ¬ Incomplete (self.incomingReliableData i) ∧
        (Decodes (self.incomingReliableData i) ∧
            (∃ all, readReliableMessages i messages self = (.ok all, self.setIncoming i none)) ∨
          ¬ Decodes (self.incomingReliableData i) ∧
            ∃ e, readReliableMessages i messages self = (.err e, self)) := by
  cases hslot : self.incomingReliableData i with
  | none => exact .inl ⟨nofun, readReliableMessages_of_quiet (hslot ▸ quiet_none) messages⟩
  | some receivedData =>
      have hsound := hs i receivedData hslot
      have htotal : receivedData.totalFragments = .ok (fragments receivedData.bytes) :=
        bytesToFragments_of_lt hsound.bytes
      have hcomplete : Incomplete (some receivedData) ↔
          receivedData.ackedFragments < fragments receivedData.bytes := by simp [Incomplete]
      rw [hcomplete]
      obtain hlt | heq | hgt := Nat.lt_trichotomy receivedData.ackedFragments
        (fragments receivedData.bytes)
      · refine .inl ⟨hlt, readReliableMessages_of_quiet ?_ messages⟩
        rw [hslot]
        rintro _ ⟨⟩
        exact ⟨_, htotal, hlt⟩
      · refine .inr ⟨heq.not_lt, ?_⟩
        have hne := readMessages_ne_panic (BitReader.inBounds_start receivedData.data) []
        rw [readReliableMessages_of_complete hslot (heq ▸ htotal) hsound.filename, readMessages_acc]
        cases hread :
          readMessages { data := receivedData.data, pos := 0 } receivedData.data.length [] with
        | panic => exact absurd hread hne
        | ok more =>
            exact .inl ⟨⟨receivedData, more, rfl, heq, hread⟩, _, rfl⟩
        | err e =>
            refine .inr ⟨?_, e, rfl⟩
            rintro ⟨_, more, ⟨⟩, -, hok⟩
            rw [hread] at hok
            cases hok
      · refine .inr ⟨hgt.not_gt, .inr ⟨?_, ?_⟩⟩
        · rintro ⟨_, more, ⟨⟩, heq, -⟩
          exact hgt.ne' heq
        · unfold readReliableMessages
          simp only [Method.get_bind, hslot, htotal, Method.lift_bind_ok, hgt.not_gt, hgt, if_false,
            if_true]
          exact ⟨_, rfl⟩

omit [BitstreamIo] in
/-- An emptied slot is sound. -/
theorem Sound.clear {self : NetChannel} (h : self.Sound) (i : Fin MAX_STREAMS) :
    (self.setIncoming i none).Sound := by
  intro j receivedData hslot
  rw [setIncoming_incomingReliableData] at hslot
  by_cases hj : j = i
  · subst hj
    rw [Function.update_self] at hslot
    cases hslot
  · rw [Function.update_of_ne hj] at hslot
    exact h j receivedData hslot

/-- No complete transfer is left in the streams exactly when each of them can
be decoded. -/
theorem readAllReliableMessages_spec {streams : List (Fin MAX_STREAMS)} (hstreams : streams.Nodup)
    {self : NetChannel} (hs : self.Sound) (messages : List Message) :
    let read := readAllReliableMessages streams messages self
    read.1 ≠ .panic ∧ UpToIncoming self read.2 ∧ read.2.Sound ∧
      (∀ i, i ∉ streams → read.2.incomingReliableData i = self.incomingReliableData i) ∧
      ((∀ i ∈ streams, Incomplete (read.2.incomingReliableData i)) ↔
        ∀ i ∈ streams, Incomplete (self.incomingReliableData i) ∨
          Decodes (self.incomingReliableData i)) := by
  induction streams generalizing self messages with
  | nil => exact ⟨nofun, rfl, hs, fun _ _ => rfl, by simp⟩
  | cons i streams ih =>
      obtain ⟨hi, hstreams⟩ := List.nodup_cons.mp hstreams
      rw [readAllReliableMessages_cons]
      obtain ⟨hslot, hread⟩ | ⟨hslot, ⟨hdecodes, all, hread⟩ | ⟨hdecodes, e, hread⟩⟩ :=
        readReliableMessages_cases hs i messages
      · obtain ⟨hpanic, hupTo, hsound, hother, hiff⟩ := ih hstreams hs messages
        rw [Method.bind_ok hread]
        refine ⟨hpanic, hupTo, hsound, fun j hj => hother j
          fun h => hj (List.mem_cons_of_mem i h), ?_⟩
        rw [List.forall_mem_cons, List.forall_mem_cons, hiff, hother i hi]
        exact and_congr_left fun _ => ⟨.inl, fun _ => hslot⟩
      · obtain ⟨hpanic, hupTo, hsound, hother, hiff⟩ := ih hstreams (hs.clear i) all
        have hrest : ∀ j, j ≠ i →
            (self.setIncoming i none).incomingReliableData j = self.incomingReliableData j := by
          intro j hj
          rw [setIncoming_incomingReliableData, Function.update_of_ne hj]
        have hcleared : (self.setIncoming i none).incomingReliableData i = none := by
          rw [setIncoming_incomingReliableData, Function.update_self]
        rw [Method.bind_ok hread]
        refine ⟨hpanic, hupTo.of_setIncoming, hsound, fun j hj => ?_, ?_⟩
        · rw [hother j fun h => hj (List.mem_cons_of_mem i h),
            hrest j (by rintro rfl; exact hj List.mem_cons_self)]
        · rw [List.forall_mem_cons, List.forall_mem_cons, hiff, hother i hi, hcleared]
          have hsame : ∀ j ∈ streams, (self.setIncoming i none).incomingReliableData j =
              self.incomingReliableData j := fun j hj => hrest j (by rintro rfl; exact hi hj)
          refine and_congr (iff_of_true nofun (.inr hdecodes)) (forall₂_congr fun j hj => ?_)
          rw [hsame j hj]
      · rw [Method.bind_err hread]
        refine ⟨nofun, rfl, hs, fun _ _ => rfl, iff_of_false ?_ ?_⟩
        · exact fun h => hslot (h i List.mem_cons_self)
        · exact fun h => (h i List.mem_cons_self).elim hslot hdecodes

/-- After the last section the packet is acknowledged, and no complete transfer
is left exactly when each of them can be decoded. -/
theorem finishSections_spec {self : NetChannel} (hs : self.Sound) (subchannelBit : Nat)
    (behind : BitReader) :
    let read := finishSections subchannelBit behind self
    read.1 ≠ .panic ∧ (∀ x, read.1 = .ok x → x.2 = behind) ∧
      read.2.inReliableState = self.inReliableState ^^^ (1#8 <<< subchannelBit) ∧ read.2.Sound ∧
      ((∀ i, Incomplete (read.2.incomingReliableData i)) ↔
        ∀ i, Incomplete (self.incomingReliableData i) ∨ Decodes (self.incomingReliableData i)) := by
  intro read
  have hs' : Sound { self with
      inReliableState := self.inReliableState ^^^ (1#8 <<< subchannelBit) } := hs
  obtain ⟨hpanic, hupTo, hsound, -, hiff⟩ :=
    readAllReliableMessages_spec (List.nodup_finRange MAX_STREAMS) hs' []
  have hread : read = (do
      let messages ← readAllReliableMessages (List.finRange MAX_STREAMS) []
      pure (messages, behind) : Method NetChannel Error _)
        { self with inReliableState := self.inReliableState ^^^ (1#8 <<< subchannelBit) } := rfl
  rw [hread, Method.bind_apply]
  revert hpanic hupTo hsound hiff
  obtain ⟨o, later⟩ := readAllReliableMessages (List.finRange MAX_STREAMS) []
    { self with inReliableState := self.inReliableState ^^^ (1#8 <<< subchannelBit) }
  intro hpanic hupTo hsound hiff
  simp only [List.mem_finRange, true_implies] at hiff
  have hstate : later.inReliableState = self.inReliableState ^^^ (1#8 <<< subchannelBit) :=
    hupTo.inReliableState
  cases o with
  | ok messages => exact ⟨nofun, fun x hx => by cases hx; rfl, hstate, hsound, hiff⟩
  | err e => exact ⟨nofun, nofun, hstate, hsound, hiff⟩
  | panic => exact absurd rfl hpanic

/-! ## Fragment arithmetic -/

variable [Crc]

/-- A packet panics in its header, or because a section of it overflows; and if
it does not panic, the transfers stay sound. -/
theorem readPacket_sound {self : NetChannel} (hs : self.Sound) (packet : List UInt8) :
    ((readPacket packet self).1 = .panic ↔
        (readHeader { data := packet, pos := 0 } packet self).1 = .panic ∨
          ∃ arrival ∈ (self.sectionsOf packet).1, arrival.Overflows) ∧
      ((readPacket packet self).1 ≠ .panic → (readPacket packet self).2.Sound) := by
  have hread := readPacket_read packet self
  revert hread
  generalize readPacket packet self = read
  generalize self.sectionsOf packet = s
  intro hread
  cases hread with
  | header hpanic hok h =>
      refine ⟨hpanic.trans (by simp), fun hne => hs.congr (h hne).1⟩
  | unreliable hheader h hdata hb =>
      obtain rfl := hdata
      refine ⟨iff_of_false (readMessages_ne_panic hb []) (by simp [hheader]), fun _ => hs.congr h.1⟩
  | reliable hheader h hslots hbehind hread =>
      cases hread with
      | overflow hover => exact ⟨iff_of_true rfl (.inr hover), fun hne => absurd rfl hne⟩
      | refused hno harrived =>
          refine ⟨iff_of_false nofun (not_or.mpr ⟨hheader, fun ⟨a, hmem, h⟩ => hno a hmem h⟩),
            fun _ => ?_⟩
          exact harrived.sound (hs.congr h.1) (fun a hmem => h.1 ▸ hslots a hmem) hno
      | @taken behind subchannelBit settled hno harrived hbit =>
          obtain ⟨hdata, hb⟩ := hbehind behind rfl
          have hsettled := harrived.sound (hs.congr h.1) (fun a hmem => h.1 ▸ hslots a hmem) hno
          obtain ⟨hpanic, hok, -, hsound, -⟩ := finishSections_spec hsettled subchannelBit behind
          refine ⟨iff_of_false ?_ (not_or.mpr ⟨hheader, fun ⟨a, hmem, h⟩ => hno a hmem h⟩),
            fun _ => hsound⟩
          refine Outcome.bind_ne_panic hpanic fun (messages, reader) hx => ?_
          obtain rfl : reader = behind := hok _ hx
          rw [← hdata]
          exact readMessages_ne_panic hb messages

/-- No call of a channel leaves a transfer that is not sound. -/
theorem Call.apply_sound {self self' : NetChannel} {call : Call} (h : self.Sound)
    (happly : call.apply self = some self') : self'.Sound := by
  cases call with
  | queueReliableMessages messages =>
      obtain ⟨-, rfl⟩ := returned_eq_some.mp happly
      exact h.congr (queueReliableMessages_upToSending messages self).sameReceived.1
  | writePacket messages =>
      obtain ⟨-, rfl⟩ := returned_eq_some.mp happly
      exact h.congr (writePacket_sends messages self).upToSending.sameReceived.1
  | readPacket packet =>
      obtain ⟨hpanic, rfl⟩ := returned_eq_some.mp happly
      exact (readPacket_sound h packet).2 hpanic

/-- Every reachable channel has sound transfers only. -/
theorem run_sound {challenge : BitVec 32} {configuration : Configuration} {calls : List Call}
    {self : NetChannel} (hrun : run (new challenge configuration) calls = some self) : self.Sound :=
  Run.induction (fun _ _ _ h happly => Call.apply_sound h happly)
    (Sound.new challenge configuration) hrun

/-- Behind its header the packet does not panic: the arithmetic on the fragments
it is about stays in range, and it is applied or refused. -/
def FragmentsInRange (self : NetChannel) (packet : List UInt8) : Prop :=
  (readPacket packet self).1 = .panic →
    (readHeader { data := packet, pos := 0 } packet self).1 = .panic

/-- The arithmetic on the fragments of a packet stays in range exactly when no
section of it has a size too large for its fragments to be counted, or no
fragments at the end of a transfer that ends within a fragment, or brings the
count of fragments to 2^32. -/
theorem fragmentsInRange_iff {challenge : BitVec 32} {configuration : Configuration}
    {calls : List Call} {self : NetChannel}
    (hrun : run (new challenge configuration) calls = some self)
    (packet : List UInt8) :
    self.FragmentsInRange packet ↔ ∀ arrival ∈ (self.sectionsOf packet).1, ¬ arrival.Overflows := by
  have hpanic := (readPacket_sound (run_sound hrun) packet).1
  unfold FragmentsInRange
  rw [hpanic]
  constructor
  · intro h arrival hmem hover
    have hheader := h (.inr ⟨arrival, hmem, hover⟩)
    have hnone : self.sectionsOf packet = ([], none) := by
      unfold sectionsOf
      rw [hheader]
    rw [hnone] at hmem
    cases hmem
  · rintro h (hheader | ⟨arrival, hmem, hover⟩)
    · exact hheader
    · exact absurd hover (h arrival hmem)

end Packets

/-- A single block that says it has 2^32 - 1 bytes. -/
def oversizedPacket : List UInt8 :=
  [1, 0, 0, 0, 0, 0, 0, 0, 33, 232, 111, 0, 5, 0, 0, 0, 200, 255, 255, 255, 255, 3]

/-- Opens a transfer of 100 bytes with no fragments of it. -/
def openingPacket : List UInt8 :=
  [1, 0, 0, 0, 0, 0, 0, 0, 33, 33, 93, 0, 5, 0, 0, 0, 24, 0, 0, 64, 6, 0, 0]

/-- No fragments, behind the first fragment. -/
def emptyPacket : List UInt8 := [2, 0, 0, 0, 0, 0, 0, 0, 33, 242, 81, 0, 5, 0, 0, 0, 56, 0, 0, 0]

/-- The condition, at a packet that opens a transfer. -/
theorem fragmentsInRange_openingPacket :
    fresh.FragmentsInRange openingPacket ↔
      ∀ arrival ∈ (fresh.sectionsOf openingPacket).1, ¬ arrival.Overflows := by
  have hrun : run fresh [] = some fresh := rfl
  exact fragmentsInRange_iff hrun openingPacket

/-- A declared size overflows at once, and an empty fragment underflows the
length in a transfer that an earlier packet has opened. -/
theorem fragments_out_of_range :
    ¬ fresh.FragmentsInRange oversizedPacket ∧
      ∃ self, run fresh [.readPacket openingPacket] = some self ∧
        ¬ self.FragmentsInRange emptyPacket := by
  refine ⟨fun h => ?_, ?_⟩
  · have hpanic : (readPacket oversizedPacket fresh).1 = .panic := by decide +kernel
    have hheader :
        (readHeader { data := oversizedPacket, pos := 0 } oversizedPacket fresh).1 ≠ .panic := by
      decide +kernel
    exact hheader (h hpanic)
  · have hrun : (run fresh [.readPacket openingPacket]).map (fun self =>
        ((readPacket emptyPacket self).1,
          (readHeader { data := emptyPacket, pos := 0 } emptyPacket self).1.isPanic)) =
        some (.panic, false) := by decide +kernel
    obtain ⟨self, hself, hvalues⟩ := Option.map_eq_some_iff.mp hrun
    obtain ⟨hpanic, hheader⟩ := Prod.mk.inj hvalues
    exact ⟨self, hself, fun h => Outcome.isPanic_eq_false.mp hheader (h hpanic)⟩

end NetChannel

end QuickplayServer
