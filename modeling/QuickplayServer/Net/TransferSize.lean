import QuickplayServer.Net.Completion

/-!
# QuickplayServer.Net.TransferSize

How large the transfers are that a channel holds.

A section of several blocks announces its size in `MAX_FILE_SIZE_BITS` bits, a
single block announces any `u32`, and the transfer is stored before its bytes
are looked for.  So a channel holds a transfer that is too large exactly after a
packet with such a single block that it does not decode at once
(`always_limited_iff`).
-/

namespace QuickplayServer

/-- The buffer has the announced size, and that is one the format allows. -/
structure IncomingReliableData.Limited (receivedData : IncomingReliableData) : Prop where
  data : receivedData.data.length = receivedData.bytes
  bytes : receivedData.bytes < 2 ^ MAX_FILE_SIZE_BITS

/-- The section is a single block that announces too large a size. -/
def SectionHeader.Exceeds : SectionHeader → Prop
  | singleBlock bytes => 2 ^ MAX_FILE_SIZE_BITS ≤ bytes
  | opening _ _ => False
  | continuing _ _ => False

/-- Fragments do not change the size of their transfer. -/
theorem Arrival.bytes_left [BitstreamIo] (arrival : Arrival) :
    arrival.left.map IncomingReliableData.bytes =
      arrival.target.map IncomingReliableData.bytes := by
  rw [left, Option.map_map]
  refine congrArg (Option.map · arrival.target) (funext fun receivedData => ?_)
  dsimp only [Function.comp]
  split
  · rfl
  · unfold SectionHeader.torn
    split <;> rfl

/-- A single block is as long as the transfer that it opens. -/
theorem SectionHeader.length_singleBlock (bytes : Nat) :
    (singleBlock bytes).length (IncomingReliableData.new none bytes) = bytes := by
  simp only [length, endFragment, startFragment, numFragments, IncomingReliableData.new,
    fragments_eq,
    Nat.zero_add, if_true]
  omega

/-- A single block whose bytes are cut off is refused. -/
theorem Arrival.behind_of_cut {arrival : Arrival} {bytes : Nat}
    (hheader : arrival.header = .singleBlock bytes)
    (hcut : arrival.reader.rest.length < 8 * bytes) :
    arrival.behind = none := by
  rw [behind_eq_none]
  rintro ⟨receivedData, htarget, hfits⟩
  rw [target, hheader] at htarget
  obtain rfl := Option.some.inj htarget
  rw [hheader] at hfits
  have := SectionHeader.length_singleBlock bytes ▸ hfits.2
  omega

/-- And its arithmetic stays in range, unless its fragments cannot be counted. -/
theorem Arrival.not_overflows_of_cut {arrival : Arrival} {bytes : Nat}
    (hheader : arrival.header = .singleBlock bytes) (hcut : arrival.reader.rest.length < 8 * bytes)
    (hsize : bytes + 256 < 2 ^ 32) : ¬ arrival.Overflows := by
  have hrefused := behind_eq_none.mp (behind_of_cut hheader hcut)
  rintro ⟨receivedData, htarget, hover⟩
  have hopened := htarget
  rw [target, hheader] at hopened
  obtain rfl := Option.some.inj hopened
  cases hover with
  | size h => exact absurd hsize (Nat.not_lt.mpr h)
  | length hend hnum hrest =>
      rw [hheader] at hnum
      have hnum : fragments bytes = 0 := hnum
      rw [fragments_eq] at hnum
      omega
  | acked hfits h => exact hrefused ⟨_, htarget, hfits⟩

namespace NetChannel

/-- The size of the transfer in the slot is within the limit. -/
def SlotLimited (slot : Option IncomingReliableData) : Prop :=
  ∀ bytes ∈ slot.map IncomingReliableData.bytes, bytes < 2 ^ MAX_FILE_SIZE_BITS

section

variable [BitstreamIo]

theorem arrivals_bounded {self : NetChannel} {streams : List (Fin MAX_STREAMS)}
    {reader : BitReader} :
    ∀ arrival ∈ (self.arrivals streams reader).1, arrival.header.Bounded := by
  induction streams generalizing reader with
  | nil => exact nofun
  | cons i streams ih =>
      rw [arrivals]
      split
      · exact ih
      · split
        case h_1 header reader' hread =>
          have hbounded := SectionHeader.read_bounded hread
          dsimp only
          split
          · exact List.forall_mem_cons.mpr ⟨hbounded, ih⟩
          · exact List.forall_mem_singleton.mpr hbounded
        case h_2 => exact nofun
      · exact nofun

/-- A section leaves a transfer within the limit unless it announces too much. -/
theorem slotLimited_left {arrival : Arrival} (hbounded : arrival.header.Bounded)
    (hslot : SlotLimited arrival.slot) : SlotLimited arrival.left ↔ ¬ arrival.header.Exceeds := by
  unfold SlotLimited
  rw [arrival.bytes_left, Arrival.target]
  cases hheader : arrival.header with
  | singleBlock bytes => simp [SectionHeader.opens, SectionHeader.Exceeds, IncomingReliableData.new]
  | opening numFragments bytes =>
      rw [hheader] at hbounded
      have hbytes : bytes < 2 ^ MAX_FILE_SIZE_BITS := hbounded.2
      simpa [SectionHeader.opens, SectionHeader.Exceeds, IncomingReliableData.new] using hbytes
  | continuing startFragment numFragments =>
      exact iff_of_true hslot id

/-- A first section that is refused is the only one. -/
theorem sections_of_refused (self : NetChannel) {reader reader' reader'' behind : BitReader}
    {subchannelBit : Nat} {header : SectionHeader}
    (hbit : (reader.readIn 3 : Result _) = .ok (subchannelBit, reader'))
    (hpresent : (reader'.readBit : Result _) = .ok (true, reader''))
    (hfields : SectionHeader.read reader'' = .ok (header, behind))
    (hrefused : Arrival.behind ⟨0, header, behind, self.incomingReliableData 0⟩ = none) :
    self.sections reader = ([⟨0, header, behind, self.incomingReliableData 0⟩], none) := by
  unfold sections
  rw [hbit]
  dsimp only
  rw [finRange_MAX_STREAMS, arrivals, hpresent]
  dsimp only
  rw [hfields]
  dsimp only
  rw [hrefused]

variable [Crc]

theorem sectionsOf_bounded (self : NetChannel) (packet : List UInt8) :
    ∀ arrival ∈ (self.sectionsOf packet).1, arrival.header.Bounded := by
  obtain h | ⟨reader, h⟩ := self.sectionsOf_cases packet <;> rw [h]
  · exact nofun
  · exact arrivals_bounded

/-- No transfer of the channel is larger than the format allows. -/
def AllLimited (self : NetChannel) : Prop :=
  ∀ i receivedData, self.incomingReliableData i = some receivedData → receivedData.Limited

omit [BitstreamIo] [Crc] in
theorem Sound.allLimited_iff {self : NetChannel} (hs : self.Sound) :
    self.AllLimited ↔ ∀ i, SlotLimited (self.incomingReliableData i) := by
  constructor
  · intro h i bytes hbytes
    obtain ⟨receivedData, hslot, rfl⟩ := Option.map_eq_some_iff.mp hbytes
    exact (h i receivedData hslot).bytes
  · intro h i receivedData hslot
    exact ⟨(hs i receivedData hslot).data, h i _ (by rw [hslot]; rfl)⟩

/-- A single block that announces too large a size is in the packet as a whole
and decoded at once: every section of the packet is taken, no stream in front
of it fails, and it is a list of messages. -/
def KeepsLimit (self : NetChannel) (packet : List UInt8) : Prop :=
  ∀ arrival ∈ (self.sectionsOf packet).1, arrival.header.Exceeds →
    (self.sectionsOf packet).2 ≠ none ∧ Decodes arrival.left ∧
      ∀ j < arrival.stream, Incomplete (self.slotLeft packet j) ∨ Decodes (self.slotLeft packet j)

theorem readPacket_allLimited_iff {self : NetChannel} (hs : self.Sound) (h : self.AllLimited)
    {packet : List UInt8} (hpanic : (readPacket packet self).1 ≠ .panic) :
    (readPacket packet self).2.AllLimited ↔ self.KeepsLimit packet := by
  have hslots := hs.allLimited_iff.mp h
  have hleft : ∀ i, SlotLimited ((readPacket packet self).2.incomingReliableData i) ↔
      (self.HandsOver packet i ∨ SlotLimited (self.slotLeft packet i)) := by
    intro i
    obtain ⟨hhands, hnone⟩ | ⟨hhands, hsame⟩ := readPacket_slot hs packet hpanic i
    · rw [hnone]
      exact iff_of_true nofun (.inl hhands)
    · rw [hsame]
      exact (or_iff_right hhands).symm
  rw [((readPacket_sound hs packet).2 hpanic).allLimited_iff, forall_congr' hleft,
    forall_slotLeft (P := fun i slot => self.HandsOver packet i ∨ SlotLimited slot)
      fun i => .inr (hslots i)]
  refine forall₂_congr fun arrival hmem => ?_
  rw [slotLimited_left (self.sectionsOf_bounded packet arrival hmem)
    (mem_sectionsOf hmem ▸ hslots arrival.stream), or_comm, ← imp_iff_not_or,
    handsOver_iff hs hpanic hmem]

/-- The channel holds no transfer that is too large throughout a run exactly
when every packet keeps the limit. -/
theorem always_limited_iff {challenge : BitVec 32} {configuration : Configuration}
    {packets : List (List UInt8)} {self : NetChannel}
    (hrun : Run.run receive (new challenge configuration) packets = some self) :
    Run.Always receive (new challenge configuration) packets AllLimited ↔
      Run.EachStep receive (new challenge configuration) packets KeepsLimit := by
  refine Run.always_iff_eachStep (I := Sound)
    (fun s packet t h hstep => Call.apply_sound h hstep) ?_
    (Sound.new challenge configuration) (fun _ => nofun) hrun
  intro s packet t hs hlimited hstep
  obtain ⟨hpanic, rfl⟩ := returned_eq_some.mp hstep
  exact readPacket_allLimited_iff hs hlimited hpanic

end

theorem always_limited_printPacket : ∃ self, Run.run receive fresh [printPacket] = some self ∧
    (Run.Always receive fresh [printPacket] AllLimited ↔
      Run.EachStep receive fresh [printPacket] KeepsLimit) := by
  have hrun : (Run.run receive fresh [printPacket]).isSome := by decide +kernel
  exact ⟨_, (Option.some_get hrun).symm, always_limited_iff (Option.some_get hrun).symm⟩

/-- A single block that says it has 2^26 bytes, and none of them. -/
def largePacket : List UInt8 :=
  [1, 0, 0, 0, 0, 0, 0, 0, 33, 251, 185, 0, 5, 0, 0, 0, 8, 32, 32, 32, 8]

/-- Its section, as it arrives. -/
def largeArrival : Arrival := ⟨0, .singleBlock (2 ^ 26), { data := largePacket, pos := 166 }, none⟩

theorem sectionsOf_largePacket : fresh.sectionsOf largePacket = ([largeArrival], none) := by
  have hheader : (readHeader { data := largePacket, pos := 0 } largePacket fresh).1 =
      .ok (0x21#8, { data := largePacket, pos := 128 }) := by decide +kernel
  have hreliable : PacketFlags.contains 0x21#8 PACKET_FLAG_RELIABLE = true := by decide
  have hbit : (BitReader.readIn 3 { data := largePacket, pos := 128 } : Result _) =
      .ok (0, { data := largePacket, pos := 131 }) := by decide +kernel
  have hpresent : (BitReader.readBit { data := largePacket, pos := 131 } : Result _) =
      .ok (true, { data := largePacket, pos := 132 }) := by decide +kernel
  have hfields : SectionHeader.read { data := largePacket, pos := 132 } =
      .ok (.singleBlock (2 ^ 26), { data := largePacket, pos := 166 }) := by decide +kernel
  have hcut : largeArrival.behind = none := Arrival.behind_of_cut rfl (by decide +kernel)
  have hsections := sections_of_refused fresh hbit hpresent hfields hcut
  rw [sectionsOf, hheader]
  exact (if_pos hreliable).trans hsections

/-- The packet is refused, and the channel holds a transfer of 2^26 bytes. -/
theorem large_transfer_held : ∃ self, Run.run receive fresh [largePacket] = some self ∧
    (∃ e, (readPacket largePacket fresh).1 = .err e) ∧
    (self.incomingReliableData 0).map IncomingReliableData.bytes = some (2 ^ 26) ∧
    ¬ self.AllLimited := by
  have hno : ∀ arrival ∈ [largeArrival], ¬ arrival.Overflows := by
    rw [List.forall_mem_singleton]
    exact Arrival.not_overflows_of_cut rfl (by decide +kernel) (by decide)
  have hread := readPacket_read largePacket fresh
  rw [sectionsOf_largePacket] at hread
  revert hread
  generalize hresult : readPacket largePacket fresh = read
  intro hread
  cases hread with
  | reliable _ _ _ _ hsection =>
      cases hsection with
      | overflow h =>
          obtain ⟨arrival, hmem, h⟩ := h
          exact absurd h (hno arrival hmem)
      | @refused e later _ harrived =>
          have hslot := harrived.left largeArrival (List.mem_singleton_self _)
          have hbytes :
              (later.incomingReliableData 0).map IncomingReliableData.bytes = some (2 ^ 26) := by
            rw [show (0 : Fin MAX_STREAMS) = largeArrival.stream from rfl, hslot,
              largeArrival.bytes_left]
            rfl
          have hstep : receive fresh largePacket = some later := by
            rw [receive, Call.apply, hresult]
            rfl
          have hrun : Run.run receive fresh [largePacket] = some later :=
            Run.run_cons_eq_some.mpr ⟨later, hstep, rfl⟩
          refine ⟨later, hrun, ⟨e, rfl⟩, hbytes, fun h => ?_⟩
          obtain ⟨receivedData, hslot, hsize⟩ := Option.map_eq_some_iff.mp hbytes
          exact absurd (h 0 receivedData hslot).bytes (by rw [hsize]; decide)

end NetChannel

end QuickplayServer
