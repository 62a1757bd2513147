import QuickplayServer.Net.Receive

/-!
# QuickplayServer.Net.Abandoned

What a packet that fails leaves behind.

A transfer is only discarded when it has been decoded, so one that is complete
stays in its slot when a later section of its packet is refused, when it has
more fragments than it should, or when it is no list of messages
(`always_incomplete_iff`).  And a packet that is refused in its sections, and
therefore not acknowledged, has already changed the transfers of the sections
before (`unacknowledgedUnchanged_iff`).
-/

namespace QuickplayServer

open NetChannel

/-! ## Complete transfers that stay -/

/-- The section brings its transfer to the number of its fragments. -/
def Arrival.Completes (arrival : Arrival) : Prop :=
  ∃ receivedData, arrival.target = some receivedData ∧
    fragments receivedData.bytes ≤ receivedData.ackedFragments +
      if arrival.header.Fits receivedData arrival.reader then arrival.header.numFragments else 0

namespace NetChannel

section

variable [BitstreamIo]

theorem incomplete_left {arrival : Arrival} : Incomplete arrival.left ↔ ¬ arrival.Completes := by
  unfold Incomplete Arrival.left Arrival.Completes
  cases arrival.target with
  | none => simp
  | some target =>
      by_cases hfits : arrival.header.Fits target arrival.reader
      · simp [hfits, SectionHeader.received]
      · by_cases hwithin : arrival.header.Within target
        · simp [hfits, hwithin, SectionHeader.torn]
        · simp [hfits, hwithin, SectionHeader.torn]

/-- What holds of the slots holds after the sections if it holds of what they leave. -/
theorem Arrived.forall_slots {channel later : NetChannel} {sections : List Arrival}
    (h : Arrived channel sections later) {P : Option IncomingReliableData → Prop}
    (hP : ∀ i, P (channel.incomingReliableData i)) :
    (∀ i, P (later.incomingReliableData i)) ↔ ∀ arrival ∈ sections, P arrival.left := by
  constructor
  · exact fun hlater arrival hmem => h.left arrival hmem ▸ hlater arrival.stream
  · intro hleft i
    by_cases hi : ∃ arrival ∈ sections, arrival.stream = i
    · obtain ⟨arrival, hmem, rfl⟩ := hi
      exact h.left arrival hmem ▸ hleft arrival hmem
    · exact h.other i (fun arrival hmem heq => hi ⟨arrival, hmem, heq⟩) ▸ hP i

variable [Crc]

/-- All sections of a packet that completes a transfer are taken, and the
transfer is a list of messages with as many fragments as it should have. -/
def FinishesTransfers (self : NetChannel) (packet : List UInt8) : Prop :=
  ∀ arrival ∈ (self.sectionsOf packet).1, arrival.Completes →
    (self.sectionsOf packet).2 ≠ none ∧ Decodes arrival.left

/-- Every transfer of the channel waits for fragments. -/
def AllIncomplete (self : NetChannel) : Prop := ∀ i, Incomplete (self.incomingReliableData i)

theorem readPacket_allIncomplete_iff {self : NetChannel} (hs : self.Sound) (h : self.AllIncomplete)
    {packet : List UInt8} (hpanic : (readPacket packet self).1 ≠ .panic) :
    (readPacket packet self).2.AllIncomplete ↔ self.FinishesTransfers packet := by
  have hread := readPacket_read packet self
  unfold FinishesTransfers
  revert hread hpanic
  generalize readPacket packet self = read
  generalize self.sectionsOf packet = s
  intro hpanic hread
  cases hread with
  | header _ _ hsame =>
      refine iff_of_true (fun i => ?_) nofun
      rw [(hsame hpanic).1]
      exact h i
  | unreliable _ hsame _ _ =>
      refine iff_of_true (fun i => ?_) nofun
      rw [hsame.1]
      exact h i
  | @reliable sections last later hheader hsame hslots hbehind read hread =>
      have hlater : ∀ i, Incomplete (later.incomingReliableData i) := fun i => hsame.1 ▸ h i
      cases hread with
      | overflow hover => exact absurd rfl hpanic
      | refused hno harrived =>
          unfold AllIncomplete
          rw [harrived.forall_slots hlater]
          refine forall₂_congr fun arrival _ => ?_
          rw [incomplete_left]
          exact ⟨fun h hcompletes => absurd hcompletes h,
            fun h hcompletes => absurd rfl (h hcompletes).1⟩
      | @taken behind subchannelBit settled hno harrived hbit =>
          have hsettled := harrived.sound (hs.congr hsame.1)
            (fun a hmem => hsame.1 ▸ hslots a hmem) hno
          unfold AllIncomplete
          rw [(finishSections_spec hsettled subchannelBit behind).2.2.2.2]
          rw [harrived.forall_slots (P := fun slot => Incomplete slot ∨ Decodes slot)
            fun i => .inl (hlater i)]
          refine forall₂_congr fun arrival _ => ?_
          rw [incomplete_left, ← imp_iff_not_or]
          simp

/-- The step of a run that only reads packets. -/
def receive (self : NetChannel) (packet : List UInt8) : Option NetChannel :=
  (Call.readPacket packet).apply self

/-- No complete transfer stays in a run exactly when every packet of it
finishes the transfers that it completes. -/
theorem always_incomplete_iff {challenge : BitVec 32} {configuration : Configuration}
    {packets : List (List UInt8)} {self : NetChannel}
    (hrun : Run.run receive (new challenge configuration) packets = some self) :
    Run.Always receive (new challenge configuration) packets AllIncomplete ↔
      Run.EachStep receive (new challenge configuration) packets FinishesTransfers := by
  refine Run.always_iff_eachStep (I := Sound)
    (fun s packet t h hstep => Call.apply_sound h hstep) ?_
    (Sound.new challenge configuration) (fun _ => nofun) hrun
  intro s packet t hs hincomplete hstep
  obtain ⟨hpanic, rfl⟩ := returned_eq_some.mp hstep
  exact readPacket_allIncomplete_iff hs hincomplete hpanic

end

theorem always_incomplete_printPacket : ∃ self, Run.run receive fresh [printPacket] = some self ∧
    (Run.Always receive fresh [printPacket] AllIncomplete ↔
      Run.EachStep receive fresh [printPacket] FinishesTransfers) := by
  have hrun : (Run.run receive fresh [printPacket]).isSome := by decide +kernel
  exact ⟨_, (Option.some_get hrun).symm, always_incomplete_iff (Option.some_get hrun).symm⟩

/-- A transfer of one byte that is no message. -/
def garbledPacket : List UInt8 := [1, 0, 0, 0, 0, 0, 0, 0, 33, 180, 34, 0, 5, 0, 0, 0, 72, 0, 1]

/-- A reliable packet without sections. -/
def sectionlessPacket : List UInt8 := [2, 0, 0, 0, 0, 0, 0, 0, 33, 241, 87, 0, 5, 0, 0, 0, 0]

/-- The transfer stays in its slot, and the next reliable packet decodes it
again and fails for it. -/
theorem garbled_transfer_stays :
    ¬ Run.Always receive fresh [garbledPacket] AllIncomplete ∧
      ∃ self, Run.run receive fresh [garbledPacket] = some self ∧
        self.incomingReliableData 0 = some ⟨1, 1, [4], none⟩ ∧ self.inReliableState = 1#8 ∧
        (readPacket sectionlessPacket self).1 = .err (.unhandledMessageType 4) := by
  have hrun : (Run.run receive fresh [garbledPacket]).map (fun self =>
      (self.incomingReliableData 0, self.inReliableState, (readPacket sectionlessPacket self).1)) =
      some (some ⟨1, 1, [4], none⟩, 1#8, .err (.unhandledMessageType 4)) := by decide +kernel
  obtain ⟨self, hself, hvalues⟩ := Option.map_eq_some_iff.mp hrun
  simp only [Prod.mk.injEq] at hvalues
  refine ⟨fun h => ?_, self, hself, hvalues⟩
  have hcomplete := h _ self (List.prefix_refl _) hself 0 _ hvalues.1
  exact absurd hcomplete (by decide)

end NetChannel

/-! ## Packets that are not acknowledged -/

/-- The section leaves its slot as it is. -/
inductive Arrival.Idle [BitstreamIo] (arrival : Arrival) : Prop where
  /-- There is no transfer that it continues. -/
  | stray (h : arrival.target = none)
  /-- Its fragments lie outside the transfer in progress. -/
  | outside {receivedData : IncomingReliableData} (hopens : arrival.header.opens = none)
      (hslot : arrival.slot = some receivedData) (h : ¬ arrival.header.Within receivedData)
  /-- It has no fragments for the transfer in progress. -/
  | empty {receivedData : IncomingReliableData} (hopens : arrival.header.opens = none)
      (hslot : arrival.slot = some receivedData)
      (hfits : arrival.header.Fits receivedData arrival.reader)
      (h : arrival.header.numFragments = 0)
  /-- Its bytes are cut off, and each byte that is in its place then was there before. -/
  | cut {receivedData : IncomingReliableData} (hopens : arrival.header.opens = none)
      (hslot : arrival.slot = some receivedData) (hwithin : arrival.header.Within receivedData)
      (hbytes : arrival.reader.rest.length < 8 * arrival.header.length receivedData)
      (h : ∀ j < arrival.header.length receivedData,
        (BitstreamIo.readBytesFailed (arrival.header.slice receivedData) arrival.reader)[j]? =
          receivedData.data[arrival.header.startFragment * 256 + j]?)
  /-- It opens a transfer of the size of the one in the slot, which has the
  fragments of the section only: its bytes, and zeros behind them. -/
  | again {bytes : Nat} (hopens : arrival.header.opens = some (.new none bytes))
      (hfits : arrival.header.Fits (.new none bytes) arrival.reader)
      (h : arrival.slot = some {
        ackedFragments := arrival.header.numFragments
        bytes := bytes
        data :=
          BitList.toBytes (arrival.reader.rest.take (8 * arrival.header.length (.new none bytes)))
            ++ List.replicate (bytes - arrival.header.length (.new none bytes)) 0
        filename := none })
  /-- It opens a transfer of the size of the one in the slot, which has no
  fragments yet; its bytes are cut off, and those in their place then were there
  before, with zeros behind them. -/
  | againCut {bytes : Nat} (hopens : arrival.header.opens = some (.new none bytes))
      (hwithin : arrival.header.Within (.new none bytes))
      (hbytes : arrival.reader.rest.length < 8 * arrival.header.length (.new none bytes))
      (h : arrival.slot = some {
        ackedFragments := 0
        bytes := bytes
        data :=
          BitstreamIo.readBytesFailed
              (List.replicate (arrival.header.length (.new none bytes)) 0) arrival.reader
            ++ List.replicate (bytes - arrival.header.length (.new none bytes)) 0
        filename := none })
  /-- It opens a transfer that its fragments lie outside of, and such a transfer
  without any fragments is in the slot. -/
  | againOutside {bytes : Nat} (hopens : arrival.header.opens = some (.new none bytes))
      (hwithin : ¬ arrival.header.Within (.new none bytes))
      (h : arrival.slot = some {
        ackedFragments := 0
        bytes := bytes
        data := List.replicate bytes 0
        filename := none })

/-- A section that opens a transfer begins it, and the transfer is zeros. -/
theorem SectionHeader.opens_eq_some {header : SectionHeader} {opened : IncomingReliableData}
    (h : header.opens = some opened) :
    header.startFragment = 0 ∧ ∃ bytes, opened = .new none bytes := by
  cases header with
  | singleBlock bytes => exact ⟨rfl, bytes, (Option.some.inj h).symm⟩
  | opening numFragments bytes => exact ⟨rfl, bytes, (Option.some.inj h).symm⟩
  | continuing startFragment numFragments => cases h

/-- A slice at the front of zeros leaves the zeros behind it. -/
theorem setSlice_replicate (bytes : Nat) (slice : List UInt8) :
    setSlice (List.replicate bytes 0) 0 slice =
      slice ++ List.replicate (bytes - slice.length) 0 := by
  rw [setSlice, List.take_zero, List.nil_append, Nat.zero_add, List.drop_replicate]

/-- Nothing changes when a slice is written over itself, and only then. -/
theorem setSlice_eq_self_iff {data slice : List UInt8} {offset : Nat}
    (h : offset + slice.length ≤ data.length) :
    setSlice data offset slice = data ↔ slice = (data.drop offset).take slice.length := by
  have htake : (data.take offset).length = offset := by
    rw [List.length_take]
    omega
  constructor
  · intro heq
    have hslice := congrArg (fun bytes => (bytes.drop offset).take slice.length) heq
    rwa [setSlice, List.append_assoc, List.drop_left' htake, List.take_left' rfl] at hslice
  · intro heq
    have hrest : slice ++ data.drop (offset + slice.length) = data.drop offset := by
      calc slice ++ data.drop (offset + slice.length)
          = (data.drop offset).take slice.length ++ (data.drop offset).drop slice.length := by
            rw [← heq, List.drop_drop]
        _ = data.drop offset := List.take_append_drop _ _
    rw [setSlice, List.append_assoc, hrest, List.take_append_drop]

theorem SectionHeader.length_slice {header : SectionHeader} {receivedData : IncomingReliableData}
    (h : header.Within receivedData) :
    (header.slice receivedData).length = header.length receivedData := by
  have := h.2
  rw [SectionHeader.slice, List.length_take, List.length_drop]
  omega

section

variable [BitstreamIo]

/-- A failed read leaves the slice as it was if it leaves each of its bytes. -/
theorem SectionHeader.readBytesFailed_eq_slice_iff {header : SectionHeader}
    {receivedData : IncomingReliableData} (h : header.Within receivedData) (reader : BitReader) :
    BitstreamIo.readBytesFailed (header.slice receivedData) reader = header.slice receivedData ↔
      ∀ j < header.length receivedData,
        (BitstreamIo.readBytesFailed (header.slice receivedData) reader)[j]? =
          receivedData.data[header.startFragment * 256 + j]? := by
  have hslice : ∀ j < header.length receivedData, (header.slice receivedData)[j]? =
      receivedData.data[header.startFragment * 256 + j]? := by
    intro j hj
    rw [SectionHeader.slice, List.getElem?_take_of_lt hj, List.getElem?_drop]
  have hlength := SectionHeader.length_slice h
  constructor
  · intro heq j hj
    rw [heq, hslice j hj]
  · intro hbytes
    refine List.ext_getElem? fun j => ?_
    by_cases hj : j < header.length receivedData
    · rw [hbytes j hj, hslice j hj]
    · have hend := Nat.not_lt.mp hj
      rw [List.getElem?_eq_none (by rw [BitstreamIo.length_readBytesFailed, hlength]; exact hend),
        List.getElem?_eq_none (by rw [hlength]; exact hend)]

omit [BitstreamIo] in
/-- The transfer that a section opens, with the fragments of the section. -/
theorem SectionHeader.received_new {header : SectionHeader} {bytes : Nat} {reader : BitReader}
    (hopens : header.opens = some (.new none bytes))
    (hfits : header.Fits (.new none bytes) reader) :
    header.received (.new none bytes) reader = {
      ackedFragments := header.numFragments
      bytes := bytes
      data := BitList.toBytes (reader.rest.take (8 * header.length (.new none bytes)))
        ++ List.replicate (bytes - header.length (.new none bytes)) 0
      filename := none } := by
  have hread : (BitList.toBytes (reader.rest.take (8 * header.length (.new none bytes)))).length =
      header.length (.new none bytes) := by
    have htake : (reader.rest.take (8 * header.length (.new none bytes))).length =
        8 * header.length (.new none bytes) := List.length_take_of_le hfits.2
    rw [BitList.length_toBytes (by rw [htake]; exact Nat.dvd_mul_right 8 _), htake,
      Nat.mul_div_cancel_left _ (by decide)]
  simp only [SectionHeader.received, IncomingReliableData.new, (opens_eq_some hopens).1,
    Nat.zero_mul, Nat.zero_add, setSlice_replicate] at hread ⊢
  rw [hread]

/-- The transfer that a section opens, with what the failed read of its bytes leaves. -/
theorem SectionHeader.torn_new {header : SectionHeader} {bytes : Nat}
    (hopens : header.opens = some (.new none bytes)) (hwithin : header.Within (.new none bytes))
    (reader : BitReader) :
    header.torn (.new none bytes) reader = {
      ackedFragments := 0
      bytes := bytes
      data := BitstreamIo.readBytesFailed
          (List.replicate (header.length (.new none bytes)) 0) reader
        ++ List.replicate (bytes - header.length (.new none bytes)) 0
      filename := none } := by
  have hstart := (opens_eq_some hopens).1
  have hslice : header.slice (.new none bytes) =
      List.replicate (header.length (.new none bytes)) 0 := by
    have hle : header.length (.new none bytes) ≤ bytes := by
      have := hwithin.2
      rw [hstart] at this
      simpa [IncomingReliableData.new] using this
    rw [SectionHeader.slice, hstart, Nat.zero_mul, List.drop_zero]
    exact (List.take_replicate ..).trans (by rw [Nat.min_eq_left hle])
  rw [SectionHeader.torn, if_pos hwithin, hstart, Nat.zero_mul, hslice]
  have hdata : (IncomingReliableData.new none bytes).data = List.replicate bytes 0 := rfl
  rw [hdata, setSlice_replicate, BitstreamIo.length_readBytesFailed, List.length_replicate]
  rfl

theorem Arrival.left_of_opens {arrival : Arrival} {opened : IncomingReliableData}
    (h : arrival.header.opens = some opened) :
    arrival.left = some (if arrival.header.Fits opened arrival.reader then
      arrival.header.received opened arrival.reader
        else arrival.header.torn opened arrival.reader) := by
  rw [Arrival.left, Arrival.target, h, Option.some_or, Option.map_some]

theorem Arrival.left_of_slot {arrival : Arrival} {receivedData : IncomingReliableData}
    (hopens : arrival.header.opens = none) (hslot : arrival.slot = some receivedData) :
    arrival.left = some (if arrival.header.Fits receivedData arrival.reader then
      arrival.header.received receivedData arrival.reader
        else arrival.header.torn receivedData arrival.reader) := by
  rw [Arrival.left, Arrival.target, hopens, Option.none_or, hslot, Option.map_some]

/-- An idle section leaves its slot as it was: it has nowhere to go, nothing to add, or
it brings again what is there. -/
theorem Arrival.Idle.left_eq {arrival : Arrival} (hidle : arrival.Idle) :
    arrival.left = arrival.slot := by
  cases hidle with
  | stray h =>
      rw [Arrival.left, h]
      exact (Option.or_eq_none_iff.mp h).2.symm
  | outside hopens hslot h =>
      rw [left_of_slot hopens hslot, hslot, if_neg fun hfits => h hfits.1, SectionHeader.torn,
        if_neg h]
  | @empty receivedData hopens hslot hfits h =>
      have hlen : arrival.header.length receivedData = 0 := by
        rw [SectionHeader.length, h, Nat.zero_mul, Nat.zero_sub]
      have hbytes : BitList.toBytes (arrival.reader.rest.take (8 * 0)) = [] := rfl
      have hstart : arrival.header.startFragment * 256 + 0 ≤ receivedData.data.length :=
        hlen ▸ hfits.1.2
      rw [left_of_slot hopens hslot, hslot, if_pos hfits, SectionHeader.received, h, hlen, hbytes,
        (setSlice_eq_self_iff (by exact hstart)).mpr rfl, Nat.add_zero]
  | @cut receivedData hopens hslot hwithin hbytes h =>
      have hslice := (SectionHeader.readBytesFailed_eq_slice_iff hwithin arrival.reader).mpr h
      have hsame : setSlice receivedData.data (arrival.header.startFragment * 256)
          (arrival.header.slice receivedData) = receivedData.data := by
        rw [setSlice_eq_self_iff (by rw [SectionHeader.length_slice hwithin]; exact hwithin.2),
          SectionHeader.length_slice hwithin]
        rfl
      rw [left_of_slot hopens hslot, hslot,
        if_neg fun hfits => absurd hfits.2 (Nat.not_le.mpr hbytes), SectionHeader.torn,
        if_pos hwithin, hslice, hsame]
  | again hopens hfits h =>
      rw [left_of_opens hopens, if_pos hfits, SectionHeader.received_new hopens hfits, h]
  | againCut hopens hwithin hbytes h =>
      rw [left_of_opens hopens, if_neg fun hfits => absurd hfits.2 (Nat.not_le.mpr hbytes),
        SectionHeader.torn_new hopens hwithin, h]
  | againOutside hopens hwithin h =>
      rw [left_of_opens hopens, if_neg fun hfits => hwithin hfits.1, SectionHeader.torn,
        if_neg hwithin, h]
      rfl

/-- A header that changes nothing opens what is in the slot already. -/
theorem Arrival.idle_of_opens {arrival : Arrival} {opened : IncomingReliableData}
    (hopens : arrival.header.opens = some opened) (hleft : arrival.left = arrival.slot) :
    arrival.Idle := by
  obtain ⟨-, bytes, rfl⟩ := SectionHeader.opens_eq_some hopens
  rw [left_of_opens hopens] at hleft
  by_cases hfits : arrival.header.Fits (.new none bytes) arrival.reader
  · rw [if_pos hfits, SectionHeader.received_new hopens hfits] at hleft
    exact .again hopens hfits hleft.symm
  · rw [if_neg hfits] at hleft
    by_cases hwithin : arrival.header.Within (.new none bytes)
    · rw [SectionHeader.torn_new hopens hwithin] at hleft
      have hbytes := Nat.not_le.mp fun hle => hfits ⟨hwithin, hle⟩
      exact .againCut hopens hwithin hbytes hleft.symm
    · rw [SectionHeader.torn, if_neg hwithin] at hleft
      exact .againOutside hopens hwithin hleft.symm

/-- A continuation that changes nothing has nowhere to go, or nothing to add. -/
theorem Arrival.idle_of_continuation {arrival : Arrival} (hopens : arrival.header.opens = none)
    (hleft : arrival.left = arrival.slot) : arrival.Idle := by
  cases hslot : arrival.slot with
  | none =>
      refine .stray ?_
      unfold Arrival.target
      rw [hopens, hslot]
      rfl
  | some receivedData =>
      rw [left_of_slot hopens hslot, hslot, Option.some.injEq] at hleft
      by_cases hfits : arrival.header.Fits receivedData arrival.reader
      · rw [if_pos hfits] at hleft
        have hacked : receivedData.ackedFragments + arrival.header.numFragments =
            receivedData.ackedFragments := congrArg IncomingReliableData.ackedFragments hleft
        exact .empty hopens hslot hfits (by omega)
      · rw [if_neg hfits, SectionHeader.torn] at hleft
        by_cases hwithin : arrival.header.Within receivedData
        · rw [if_pos hwithin] at hleft
          have hdata := congrArg IncomingReliableData.data hleft
          have hbytes := Nat.not_le.mp fun hle => hfits ⟨hwithin, hle⟩
          dsimp only at hdata
          rw [setSlice_eq_self_iff, BitstreamIo.length_readBytesFailed,
            SectionHeader.length_slice hwithin] at hdata
          · exact .cut hopens hslot hwithin hbytes
              ((SectionHeader.readBytesFailed_eq_slice_iff hwithin _).mp hdata)
          · rw [BitstreamIo.length_readBytesFailed, SectionHeader.length_slice hwithin]
            exact hwithin.2
        · exact .outside hopens hslot hwithin

/-- The slot is as it was exactly behind an idle section, so the kinds of idle sections
are all that there are. -/
theorem Arrival.idle_iff {arrival : Arrival} : arrival.Idle ↔ arrival.left = arrival.slot := by
  constructor
  · exact Arrival.Idle.left_eq
  · intro hleft
    cases hopens : arrival.header.opens with
    | some opened => exact idle_of_opens hopens hleft
    | none => exact idle_of_continuation hopens hleft

end

namespace NetChannel

section

variable [BitstreamIo]

theorem finishSections_inReliableState {self : NetChannel} {subchannelBit : Nat}
    {behind : BitReader}
    (hpanic : (finishSections subchannelBit behind self).1 ≠ .panic) :
    (finishSections subchannelBit behind self).2.inReliableState =
      self.inReliableState ^^^ (1#8 <<< subchannelBit) := by
  have hkeeps : Method.Keeps (fun later => later.inReliableState =
      self.inReliableState ^^^ (1#8 <<< subchannelBit))
      (readAllReliableMessages (List.finRange MAX_STREAMS) []) := by
    intro later h
    refine Method.Triple.consequence (readAllReliableMessages_onlyIncoming later _ _)
      (fun _ hs => hs)
      (fun _ _ hs => ?_) (fun _ _ hs => ?_) later rfl
    · exact hs.inReliableState.trans h
    · exact hs.1.inReliableState.trans h
  have hfinish := Method.Keeps.bind hkeeps fun messages => Method.Keeps.pure (messages, behind)
  exact hfinish.run (s := { self with
    inReliableState := self.inReliableState ^^^ (1#8 <<< subchannelBit) }) rfl hpanic

omit [BitstreamIo] in
/-- Acknowledging a packet changes the state. -/
theorem acknowledged_ne (state : BitVec 8) {subchannelBit : Nat} (h : subchannelBit < 2 ^ 3) :
    state ^^^ (1#8 <<< subchannelBit) ≠ state := by
  intro heq
  have hmask : ∀ k : Fin (2 ^ 3), 1#8 <<< k.val ≠ 0#8 := by decide
  refine hmask ⟨subchannelBit, h⟩ ?_
  have hxor : state ^^^ (state ^^^ (1#8 <<< subchannelBit)) = state ^^^ state := by rw [heq]
  rwa [← BitVec.xor_assoc, BitVec.xor_self, BitVec.zero_xor] at hxor

variable [Crc]

/-- A packet that is refused and not acknowledged has changed no transfer. -/
def UnacknowledgedUnchanged (self : NetChannel) (packet : List UInt8) : Prop :=
  ∀ e, (readPacket packet self).1 = .err e →
    (readPacket packet self).2.inReliableState = self.inReliableState →
    (readPacket packet self).2.incomingReliableData = self.incomingReliableData

/-- A packet that is not acknowledged changes no transfer exactly when none of
its sections, up to the one that is refused, changes the transfer of its stream. -/
theorem unacknowledgedUnchanged_iff (self : NetChannel) (packet : List UInt8) :
    self.UnacknowledgedUnchanged packet ↔
      ((self.sectionsOf packet).2 = none →
        (∀ arrival ∈ (self.sectionsOf packet).1, ¬ arrival.Overflows) →
        ∀ arrival ∈ (self.sectionsOf packet).1, arrival.Idle) := by
  have hread := readPacket_read packet self
  unfold UnacknowledgedUnchanged
  revert hread
  generalize readPacket packet self = read
  generalize self.sectionsOf packet = s
  intro hread
  cases hread with
  | header _ _ hsame =>
      refine iff_of_true (fun e he _ => ?_) fun _ _ => nofun
      exact (hsame (by rw [he]; exact nofun)).1
  | unreliable _ hsame _ _ => exact iff_of_true (fun _ _ _ => hsame.1) fun _ _ => nofun
  | @reliable sections last later hheader hsame hslots hbehind read hread =>
      cases hread with
      | overflow hover =>
          obtain ⟨arrival, hmem, h⟩ := hover
          exact iff_of_true (fun e => nofun) fun _ hno => absurd h (hno arrival hmem)
      | @refused e settled hno harrived =>
          have hstate := harrived.upTo.inReliableState.trans hsame.2
          have hidle : ∀ arrival ∈ sections, (arrival.Idle ↔
              settled.incomingReliableData arrival.stream =
                self.incomingReliableData arrival.stream) := by
            intro arrival hmem
            rw [Arrival.idle_iff, harrived.left arrival hmem, hslots arrival hmem]
          constructor
          · exact fun h _ _ arrival hmem => (hidle arrival hmem).mpr (congrFun (h e rfl hstate) _)
          · intro h _ _ _
            funext i
            by_cases hi : ∃ arrival ∈ sections, arrival.stream = i
            · obtain ⟨arrival, hmem, rfl⟩ := hi
              exact (hidle arrival hmem).mp (h rfl hno arrival hmem)
            · rw [← hsame.1]
              exact harrived.other i fun arrival hmem heq => hi ⟨arrival, hmem, heq⟩
      | @taken behind subchannelBit settled hno harrived hbit =>
          refine iff_of_true (fun e he hstate => ?_) nofun
          have hpanic : (finishSections subchannelBit behind settled).1 ≠ .panic := by
            intro hpanic
            rw [hpanic] at he
            cases he
          have hacknowledged : (finishSections subchannelBit behind settled).2.inReliableState =
            self.inReliableState := hstate
          rw [finishSections_inReliableState hpanic, harrived.upTo.inReliableState, hsame.2]
            at hacknowledged
          exact absurd hacknowledged (acknowledged_ne _ hbit)

end

/-- A whole transfer on stream 0, and a fragment on stream 1 that was never opened. -/
def straySectionPacket : List UInt8 :=
  [1, 0, 0, 0, 0, 0, 0, 0, 33, 121, 76, 0, 5, 0, 0, 0, 200, 192, 129, 7, 192, 1, 0, 4]

/-- The packet is refused and not acknowledged, and the transfer on stream 0 is
stored and counted all the same. -/
theorem unacknowledged_transfer_counted :
    (readPacket straySectionPacket fresh).1 = .err .noActiveSubchannelData ∧
      (readPacket straySectionPacket fresh).2.inReliableState = fresh.inReliableState ∧
      (readPacket straySectionPacket fresh).2.incomingReliableData 0 =
        some ⟨1, 3, [7, 30, 0], none⟩ ∧
      ¬ fresh.UnacknowledgedUnchanged straySectionPacket := by
  have herr : (readPacket straySectionPacket fresh).1 = .err .noActiveSubchannelData :=
    by decide +kernel
  have hstate :
      (readPacket straySectionPacket fresh).2.inReliableState = fresh.inReliableState := by
    decide +kernel
  have hslot : (readPacket straySectionPacket fresh).2.incomingReliableData 0 =
      some ⟨1, 3, [7, 30, 0], none⟩ := by decide +kernel
  refine ⟨herr, hstate, hslot, fun h => ?_⟩
  have hsame := congrFun (h _ herr hstate) 0
  rw [hslot] at hsame
  cases hsame

end NetChannel

end QuickplayServer
