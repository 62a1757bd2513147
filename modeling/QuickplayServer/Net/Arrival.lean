import QuickplayServer.Net.Fragment
import QuickplayServer.Net.ReadFrame

/-!
# QuickplayServer.Net.Arrival

A stream section as the packet has it, and what it does to the transfer that
it arrives at.

The fields of a section can be read from the packet alone
(`SectionHeader.read`).  Against the transfer in its slot, or the one that it
opens itself, a section then overflows, fits, or is refused
(`readIncomingSubchannelData_cases`), for every slot and every packet.
-/

namespace QuickplayServer

/-- The fields in front of the fragments of a section. -/
inductive SectionHeader where
  /-- A whole transfer. -/
  | singleBlock (bytes : Nat)
  /-- The first fragments of a transfer. -/
  | opening (numFragments bytes : Nat)
  /-- Fragments of the transfer in progress. -/
  | continuing (startFragment numFragments : Nat)
  deriving DecidableEq, Repr

namespace SectionHeader

def startFragment : SectionHeader → Nat
  | singleBlock _ => 0
  | opening _ _ => 0
  | continuing startFragment _ => startFragment

def numFragments : SectionHeader → Nat
  | singleBlock bytes => fragments bytes
  | opening numFragments _ => numFragments
  | continuing _ numFragments => numFragments

/-- The transfer that the section opens. -/
def opens : SectionHeader → Option IncomingReliableData
  | singleBlock bytes => some (IncomingReliableData.new none bytes)
  | opening _ bytes => some (IncomingReliableData.new none bytes)
  | continuing _ _ => none

section

variable [BitstreamIo]

/-- Reads the fields of a section. -/
def read (reader : BitReader) : Result (SectionHeader × BitReader) := do
  let (isMultiBlock, reader) ← reader.readBit
  if isMultiBlock then
    let (startFragment, reader) ← reader.readIn (MAX_FILE_SIZE_BITS - FRAGMENT_BITS)
    let (numFragments, reader) ← reader.readIn 3
    if startFragment = 0 then
      let (isFile, reader) ← reader.readBit
      if isFile then .err .fileTransfer else
        let (isCompressed, reader) ← reader.readBit
        if isCompressed then .err .compressedData else
          let (bytes, reader) ← reader.readIn MAX_FILE_SIZE_BITS
          pure (.opening numFragments bytes, reader)
    else
      pure (.continuing startFragment numFragments, reader)
  else
    let (isCompressed, reader) ← reader.readBit
    if isCompressed then .err .compressedData else
      let (bytes, reader) ← readVarint32 reader
      pure (.singleBlock bytes, reader)

end

/-! ## Reading the fields -/

/-- The fields with the arithmetic on them. -/
def fields (header : SectionHeader) : NetChannel.FragmentHeader where
  startFragment := header.startFragment
  numFragments := header.numFragments
  offset := header.startFragment * FRAGMENT_SIZE
  length := header.numFragments * FRAGMENT_SIZE
  receivedData := header.opens

/-- The fragments of a size that is declared in one block are counted in 32 bits. -/
def Oversized : SectionHeader → Prop
  | singleBlock bytes => 2 ^ 32 ≤ bytes + 256
  | _ => False

instance : (header : SectionHeader) → Decidable header.Oversized
  | singleBlock bytes => inferInstanceAs (Decidable (2 ^ 32 ≤ bytes + 256))
  | opening _ _ => inferInstanceAs (Decidable False)
  | continuing _ _ => inferInstanceAs (Decidable False)

/-- What fits the fields of a section. -/
def Bounded : SectionHeader → Prop
  | singleBlock _ => True
  | opening numFragments bytes => numFragments < 2 ^ 3 ∧ bytes < 2 ^ 26
  | continuing startFragment numFragments => startFragment < 2 ^ 18 ∧ numFragments < 2 ^ 3

/-- The end of `readFragmentHeader`. -/
def compute (header : SectionHeader) (reader : BitReader) :
    Result (NetChannel.FragmentHeader × BitReader) :=
  if header.Oversized then .panic else .ok (header.fields, reader)

theorem compute_of {header : SectionHeader} (h : header.Oversized) (reader : BitReader) :
    header.compute reader = .panic := if_pos h

theorem compute_of_not {header : SectionHeader} (h : ¬ header.Oversized) (reader : BitReader) :
    header.compute reader = .ok (header.fields, reader) := if_neg h

section

variable [BitstreamIo]

/-- Only the arithmetic on the fields can panic. -/
theorem readFragmentHeader_eq (reader : BitReader) :
    NetChannel.readFragmentHeader reader = read reader >>=
    fun (header, reader) => header.compute reader := by
  refine Outcome.bind_eq_bind_bind fun (isMultiBlock, reader) _ => ?_
  dsimp only
  split
  case isTrue =>
    refine Outcome.bind_eq_bind_bind fun (startFragment, reader) hstart => ?_
    refine Outcome.bind_eq_bind_bind fun (numFragments, reader) hnum => ?_
    have hstart : startFragment < 2 ^ 18 := (BitReader.readIn_eq_ok.mp hstart).1
    have hnum : numFragments < 2 ^ 3 := (BitReader.readIn_eq_ok.mp hnum).1
    have hzero : startFragment * FRAGMENT_SIZE = 0 ↔ startFragment = 0 := by
      rw [FRAGMENT_SIZE_eq]
      omega
    dsimp only
    rw [Outcome.mul32_of_lt (by rw [FRAGMENT_SIZE_eq]; omega), Outcome.ok_bind,
      Outcome.mul32_of_lt (by rw [FRAGMENT_SIZE_eq]; omega), Outcome.ok_bind]
    simp only [hzero]
    split
    case isTrue hfirst =>
      refine Outcome.bind_eq_bind_bind fun (isFile, reader) _ => ?_
      dsimp only
      split
      · rfl
      · refine Outcome.bind_eq_bind_bind fun (isCompressed, reader) _ => ?_
        dsimp only
        split
        · rfl
        · refine Outcome.bind_eq_bind_bind fun (bytes, reader) _ => ?_
          rw [Outcome.pure_eq, Outcome.pure_eq, Outcome.ok_bind, compute_of_not (by exact id),
            hfirst]
          rfl
    case isFalse =>
      rw [Outcome.pure_eq, Outcome.pure_eq, Outcome.ok_bind, compute_of_not (by exact id)]
      rfl
  case isFalse =>
    refine Outcome.bind_eq_bind_bind fun (isCompressed, reader) _ => ?_
    dsimp only
    split
    · rfl
    · refine Outcome.bind_eq_bind_bind fun (bytes, reader) _ => ?_
      have htotal : (IncomingReliableData.new none bytes).totalFragments = bytesToFragments bytes :=
        rfl
      dsimp only
      rw [htotal]
      rw [Outcome.pure_eq, Outcome.ok_bind]
      by_cases hsize : 2 ^ 32 ≤ bytes + 256
      · rw [bytesToFragments_of_le hsize, Outcome.panic_bind, compute_of (by exact hsize)]
      · have hfits : fragments bytes * FRAGMENT_SIZE < 2 ^ 32 := by
          rw [fragments_eq, FRAGMENT_SIZE_eq]
          omega
        rw [bytesToFragments_of_lt (by omega), Outcome.ok_bind, Outcome.mul32_of_lt hfits,
          Outcome.ok_bind, compute_of_not (by exact hsize)]
        simp [fields, startFragment, numFragments, opens]

/-- Reading the fields can fail, but only the arithmetic on them can panic. -/
theorem read_ne_panic (reader : BitReader) : read reader ≠ .panic := by
  refine Outcome.bind_ne_panic (BitReader.readBit_ne_panic _) fun (isMultiBlock, reader) _ => ?_
  dsimp only
  split
  · refine Outcome.bind_ne_panic (BitReader.readIn_ne_panic _ _) fun (startFragment, reader) _ => ?_
    refine Outcome.bind_ne_panic (BitReader.readIn_ne_panic _ _) fun (numFragments, reader) _ => ?_
    dsimp only
    split
    · refine Outcome.bind_ne_panic (BitReader.readBit_ne_panic _) fun (isFile, reader) _ => ?_
      dsimp only
      split
      · simp
      · refine Outcome.bind_ne_panic (BitReader.readBit_ne_panic _)
          fun (isCompressed, reader) _ => ?_
        dsimp only
        split
        · simp
        · exact Outcome.bind_ne_panic (BitReader.readIn_ne_panic _ _) fun _ _ => by simp
    · simp
  · refine Outcome.bind_ne_panic (BitReader.readBit_ne_panic _) fun (isCompressed, reader) _ => ?_
    dsimp only
    split
    · simp
    · exact Outcome.bind_ne_panic (readVarint32_ne_panic _) fun _ _ => by simp

/-- What was read from a field fits it. -/
theorem read_bounded {header : SectionHeader} {reader reader' : BitReader}
    (h : read reader = .ok (header, reader')) : header.Bounded := by
  obtain ⟨⟨isMultiBlock, r₁⟩, -, h⟩ := Outcome.bind_eq_ok.mp h
  dsimp only at h
  split at h
  · obtain ⟨⟨startFragment, r₂⟩, hstartField, h⟩ := Outcome.bind_eq_ok.mp h
    obtain ⟨⟨numFragments, r₃⟩, hnumField, h⟩ := Outcome.bind_eq_ok.mp h
    have hstart : startFragment < 2 ^ 18 := (BitReader.readIn_eq_ok.mp hstartField).1
    have hnum : numFragments < 2 ^ 3 := (BitReader.readIn_eq_ok.mp hnumField).1
    dsimp only at h
    split at h
    · obtain ⟨⟨isFile, r₄⟩, -, h⟩ := Outcome.bind_eq_ok.mp h
      dsimp only at h
      split at h
      · cases h
      · obtain ⟨⟨isCompressed, r₅⟩, -, h⟩ := Outcome.bind_eq_ok.mp h
        dsimp only at h
        split at h
        · cases h
        · obtain ⟨⟨bytes, r₆⟩, hbytes, h⟩ := Outcome.bind_eq_ok.mp h
          cases h
          exact ⟨hnum, (BitReader.readIn_eq_ok.mp hbytes).1⟩
    · cases h
      exact ⟨hstart, hnum⟩
  · obtain ⟨⟨isCompressed, r₂⟩, -, h⟩ := Outcome.bind_eq_ok.mp h
    dsimp only at h
    split at h
    · cases h
    · obtain ⟨⟨bytes, r₃⟩, -, h⟩ := Outcome.bind_eq_ok.mp h
      cases h
      trivial

end

/-! ## Against a transfer -/

variable (header : SectionHeader) (receivedData : IncomingReliableData)

/-- The number of fragments up to the last one of the section. -/
def endFragment : Nat := header.startFragment + header.numFragments

/-- The end of the fragments of a section can be computed in 32 bits. -/
theorem Bounded.endFragment_lt {header : SectionHeader} (h : header.Bounded)
    (hsize : ¬ header.Oversized) : header.endFragment < 2 ^ 32 := by
  cases header with
  | singleBlock bytes =>
      have hsize : ¬ 2 ^ 32 ≤ bytes + 256 := hsize
      simp only [endFragment, startFragment, numFragments, fragments_eq]
      omega
  | opening numFragments bytes =>
      have := h.1
      simp only [endFragment, startFragment, SectionHeader.numFragments]
      omega
  | continuing startFragment numFragments =>
      have := h.1
      have := h.2
      simp only [endFragment, SectionHeader.startFragment, SectionHeader.numFragments]
      omega

/-- The number of bytes of the section; the last fragment ends with the transfer. -/
def length : Nat :=
  header.numFragments * 256 -
    if header.endFragment = fragments receivedData.bytes then
      fragments receivedData.bytes * 256 - receivedData.bytes
    else 0

/-- The fragments lie within the transfer. -/
def Within : Prop :=
  header.endFragment ≤ fragments receivedData.bytes ∧
    header.startFragment * 256 + header.length receivedData ≤ receivedData.data.length

/-- The fragments lie within the transfer and all their bytes are there. -/
def Fits (reader : BitReader) : Prop :=
  header.Within receivedData ∧ 8 * header.length receivedData ≤ reader.rest.length

/-- The arithmetic on the section and the transfer leaves the range of `u32`. -/
inductive Overflows (reader : BitReader) : Prop where
  /-- The size is too large for its fragments to be counted. -/
  | size (h : 2 ^ 32 ≤ receivedData.bytes + 256)
  /-- No fragments at the end of a transfer that ends within a fragment. -/
  | length (hend : header.endFragment = fragments receivedData.bytes)
      (hnum : header.numFragments = 0) (hrest : receivedData.bytes % 256 ≠ 0)
  /-- The count of the fragments received. -/
  | acked (hfits : header.Fits receivedData reader)
      (h : 2 ^ 32 ≤ receivedData.ackedFragments + header.numFragments)

/-- The transfer with the fragments. -/
def received (reader : BitReader) : IncomingReliableData :=
  { receivedData with
    ackedFragments := receivedData.ackedFragments + header.numFragments
    data := setSlice receivedData.data (header.startFragment * 256)
      (BitList.toBytes (reader.rest.take (8 * header.length receivedData))) }

instance : Decidable (header.Within receivedData) := inferInstanceAs (Decidable (_ ∧ _))

instance (reader : BitReader) : Decidable (header.Fits receivedData reader) :=
  inferInstanceAs (Decidable (_ ∧ _))

/-- The bytes that the section is written over. -/
def slice : List UInt8 :=
  (receivedData.data.drop (header.startFragment * 256)).take (header.length receivedData)

/-- The transfer after the section is refused: its bytes may be there in part. -/
def torn [BitstreamIo] (reader : BitReader) : IncomingReliableData :=
  if header.Within receivedData then
    { receivedData with
      data := setSlice receivedData.data (header.startFragment * 256)
        (BitstreamIo.readBytesFailed (header.slice receivedData) reader) }
  else receivedData

end SectionHeader

/-- The length of the last fragments underflows only if there are none of them. -/
theorem adjustLength_cases (bytes num : Nat) :
    adjustLength bytes (num * FRAGMENT_SIZE) =
      if num = 0 ∧ bytes % 256 ≠ 0 then .panic
      else .ok (num * 256 - (fragments bytes * 256 - bytes)) := by
  have hrest : bytes % FRAGMENT_SIZE ≤ FRAGMENT_SIZE :=
    Nat.le_of_lt (Nat.mod_lt _ (by decide))
  rw [adjustLength, Outcome.checkedSub_of_le hrest, Outcome.ok_bind]
  rw [FRAGMENT_SIZE_eq, fragments_eq]
  by_cases hcut : bytes % 256 = 0
  · rw [if_neg (by omega), if_neg (by omega), Outcome.pure_eq, Outcome.ok.injEq]
    omega
  · rw [if_pos (by omega)]
    by_cases hnum : num = 0
    · rw [if_pos ⟨hnum, hcut⟩, Outcome.checkedSub, if_neg (by omega)]
    · rw [if_neg (by omega), Outcome.checkedSub_of_le (by omega), Outcome.ok.injEq]
      omega

namespace NetChannel

/-- Setting a slot to what is in it changes nothing. -/
theorem setIncoming_of_eq {self : NetChannel} {i : Fin MAX_STREAMS}
    {slot : Option IncomingReliableData} (h : self.incomingReliableData i = slot) :
    self.setIncoming i slot = self := by
  rw [setIncoming, ← h, Function.update_eq_self]

/-- The last update of a slot counts. -/
theorem setIncoming_setIncoming (self : NetChannel) (i : Fin MAX_STREAMS)
    (slot slot' : Option IncomingReliableData) :
    (self.setIncoming i slot).setIncoming i slot' = self.setIncoming i slot' := by
  simp only [setIncoming, Function.update_idem]

variable [BitstreamIo]

open SectionHeader in
/-- Fragments that arrive at a transfer overflow, are received or are refused. -/
theorem readFragment_cases {header : SectionHeader} {receivedData : IncomingReliableData}
    {i : Fin MAX_STREAMS} {self : NetChannel} (reader : BitReader)
    (hslot : self.incomingReliableData i = some receivedData)
    (hend : header.endFragment < 2 ^ 32) :
    let read := readFragment i header.startFragment header.numFragments
      (header.startFragment * FRAGMENT_SIZE) (header.numFragments * FRAGMENT_SIZE) reader self
    header.Overflows receivedData reader ∧ read.1 = .panic ∨
      ¬ header.Overflows receivedData reader ∧
        (header.Fits receivedData reader ∧
            read = (.ok (reader.skip (8 * header.length receivedData)),
              self.setIncoming i (some (header.received receivedData reader))) ∨
          ¬ header.Fits receivedData reader ∧
            ∃ e, read = (.err e, self.setIncoming i (some (header.torn receivedData reader)))) := by
  have hadd : (Outcome.add32 header.startFragment header.numFragments : Result Nat) =
      .ok header.endFragment := Outcome.add32_of_lt hend
  unfold readFragment
  simp only [Method.get_bind, hslot, hadd, Method.lift_bind_ok, IncomingReliableData.totalFragments]
  by_cases hsize : 2 ^ 32 ≤ receivedData.bytes + 256
  · rw [bytesToFragments_of_le hsize]
    exact .inl ⟨.size hsize, rfl⟩
  rw [bytesToFragments_of_lt (by omega), Method.lift_bind_ok]
  by_cases hunder : header.endFragment = fragments receivedData.bytes ∧ header.numFragments = 0 ∧
      receivedData.bytes % 256 ≠ 0
  · rw [if_pos hunder.1, adjustLength_cases, if_pos hunder.2]
    exact .inl ⟨.length hunder.1 hunder.2.1 hunder.2.2, rfl⟩
  have hlength : (if header.endFragment = fragments receivedData.bytes then
      adjustLength receivedData.bytes (header.numFragments * FRAGMENT_SIZE)
      else pure (header.numFragments * FRAGMENT_SIZE)) = .ok (header.length receivedData) := by
    unfold SectionHeader.length
    by_cases hlast : header.endFragment = fragments receivedData.bytes
    · rw [if_pos hlast, if_pos hlast, adjustLength_cases, if_neg fun h => hunder ⟨hlast, h⟩]
    · rw [if_neg hlast, if_neg hlast, FRAGMENT_SIZE_eq, Nat.sub_zero, Outcome.pure_eq]
  rw [hlength, Method.lift_bind_ok]
  -- what is left of the overflows is the count, and only when the fragments fit
  have hrest : header.Overflows receivedData reader ↔ header.Fits receivedData reader ∧
      2 ^ 32 ≤ receivedData.ackedFragments + header.numFragments := by
    constructor
    · rintro (h | ⟨hlast, hnum, hrest⟩ | ⟨hfits, h⟩)
      · exact absurd h hsize
      · exact absurd ⟨hlast, hnum, hrest⟩ hunder
      · exact ⟨hfits, h⟩
    · exact fun h => .acked h.1 h.2
  rw [hrest]
  by_cases hover : header.endFragment > fragments receivedData.bytes
  · have hwithin : ¬ header.Within receivedData := fun h => absurd h.1 (Nat.not_le.mpr hover)
    rw [if_pos hover]
    refine .inr ⟨fun h => hwithin h.1.1, .inr ⟨fun h => hwithin h.1, ?_⟩⟩
    rw [torn, if_neg hwithin, setIncoming_of_eq hslot]
    exact ⟨_, rfl⟩
  rw [if_neg hover, FRAGMENT_SIZE_eq, getSlice]
  by_cases hslice :
    header.startFragment * 256 + header.length receivedData ≤ receivedData.data.length
  · have hwithin : header.Within receivedData := ⟨Nat.not_lt.mp hover, hslice⟩
    rw [if_pos hslice]
    dsimp only
    by_cases hbytes : 8 * header.length receivedData ≤ reader.rest.length
    · have hfits : header.Fits receivedData reader := ⟨hwithin, hbytes⟩
      have hread : (reader.readBytes (header.length receivedData) : Result _) =
          .ok (BitList.toBytes (reader.rest.take (8 * header.length receivedData)),
            reader.skip (8 * header.length receivedData)) := by
        rw [BitReader.readBytes, BitstreamIo.readBytes_eq, if_pos hbytes, Outcome.ofOption_some]
      rw [hread]
      dsimp only
      by_cases hacked : receivedData.ackedFragments + header.numFragments < 2 ^ 32
      · rw [Outcome.add32_of_lt hacked]
        exact .inr ⟨fun h => absurd h.2 (by omega), .inl ⟨hfits, rfl⟩⟩
      · rw [Outcome.add32, if_neg hacked]
        exact .inl ⟨⟨hfits, by omega⟩, rfl⟩
    · have hfits : ¬ header.Fits receivedData reader := fun h => hbytes h.2
      have hread : (reader.readBytes (header.length receivedData) : Result _) = .err .io := by
        rw [BitReader.readBytes, BitstreamIo.readBytes_eq, if_neg hbytes, Outcome.ofOption_none]
        rfl
      rw [hread]
      refine .inr ⟨fun h => hfits h.1, .inr ⟨hfits, ?_⟩⟩
      rw [torn, if_pos hwithin]
      exact ⟨_, rfl⟩
  · have hwithin : ¬ header.Within receivedData := fun h => hslice h.2
    rw [if_neg hslice]
    refine .inr ⟨fun h => hwithin h.1.1, .inr ⟨fun h => hwithin h.1, ?_⟩⟩
    rw [torn, if_neg hwithin, setIncoming_of_eq hslot]
    exact ⟨_, rfl⟩

end NetChannel

/-! ## Sections and their slots -/

/-- A section of a packet and what it finds. -/
structure Arrival where
  stream : Fin MAX_STREAMS
  header : SectionHeader
  /-- The reader behind the fields of the section. -/
  reader : BitReader
  /-- The slot of the stream. -/
  slot : Option IncomingReliableData

namespace Arrival

/-- The transfer that the fragments go into. -/
def target (arrival : Arrival) : Option IncomingReliableData :=
  arrival.header.opens.or arrival.slot

/-- There is a transfer, and the fragments fit into it. -/
def Fits (arrival : Arrival) : Prop :=
  ∃ receivedData, arrival.target = some receivedData ∧
    arrival.header.Fits receivedData arrival.reader

/-- There is a transfer, and the arithmetic on it overflows. -/
def Overflows (arrival : Arrival) : Prop :=
  ∃ receivedData, arrival.target = some receivedData ∧
    arrival.header.Overflows receivedData arrival.reader

variable [BitstreamIo]

/-- What the section leaves in its slot. -/
def left (arrival : Arrival) : Option IncomingReliableData :=
  arrival.target.map fun receivedData =>
    if arrival.header.Fits receivedData arrival.reader then
      arrival.header.received receivedData arrival.reader
    else arrival.header.torn receivedData arrival.reader

omit [BitstreamIo] in
/-- The reader behind the section, if it fits. -/
def behind (arrival : Arrival) : Option BitReader :=
  arrival.target.bind fun receivedData =>
    if arrival.header.Fits receivedData arrival.reader then
      some (arrival.reader.skip (8 * arrival.header.length receivedData))
    else none

omit [BitstreamIo] in
/-- Nothing is read behind a section exactly if it does not fit. -/
theorem behind_eq_none {arrival : Arrival} : arrival.behind = none ↔ ¬ arrival.Fits := by
  unfold behind Fits
  cases arrival.target <;> simp

end Arrival

namespace NetChannel

variable [BitstreamIo]

/-- A section overflows, or it settles its slot. -/
theorem readIncomingSubchannelData_cases {reader reader' : BitReader} {header : SectionHeader}
    (i : Fin MAX_STREAMS) (self : NetChannel)
    (hread : SectionHeader.read reader = .ok (header, reader')) :
    let arrival : Arrival := ⟨i, header, reader', self.incomingReliableData i⟩
    let read := readIncomingSubchannelData reader i self
    arrival.Overflows ∧ read.1 = .panic ∨
      ¬ arrival.Overflows ∧
        ((∃ behind, arrival.behind = some behind ∧
            read = (.ok behind, self.setIncoming i arrival.left)) ∨
          arrival.behind = none ∧ ∃ e, read = (.err e, self.setIncoming i arrival.left)) := by
  intro arrival read
  have hfields : (liftM (readFragmentHeader reader) : Method NetChannel Error _) self =
      (header.compute reader', self) := by
    rw [Method.lift_apply, SectionHeader.readFragmentHeader_eq, hread, Outcome.ok_bind]
  by_cases hsize : header.Oversized
  · refine .inl ⟨?_, ?_⟩
    · cases header with
      | singleBlock bytes => exact ⟨_, rfl, .size hsize⟩
      | opening numFragments bytes => exact absurd hsize id
      | continuing startFragment numFragments => exact absurd hsize id
    · rw [SectionHeader.compute_of hsize] at hfields
      simp only [read]
      rw [readIncomingSubchannelData, Method.bind_panic hfields]
  · rw [SectionHeader.compute_of_not hsize] at hfields
    have hend := (SectionHeader.read_bounded hread).endFragment_lt hsize
    have heq : read = readFragment i header.startFragment header.numFragments
        (header.startFragment * FRAGMENT_SIZE) (header.numFragments * FRAGMENT_SIZE) reader'
        (self.setIncoming i arrival.target) := by
      simp only [read]
      rw [readIncomingSubchannelData, Method.bind_ok hfields]
      simp only [SectionHeader.fields, arrival, Arrival.target]
      cases header.opens with
      | none => rw [Option.none_or, setIncoming_of_eq rfl]
      | some receivedData =>
          rw [Option.some_or]
          rfl
    rw [heq]
    unfold Arrival.Overflows Arrival.behind Arrival.left
    cases htarget : arrival.target with
    | none =>
        refine .inr ⟨by simp, .inr ⟨rfl, .noActiveSubchannelData, ?_⟩⟩
        simp only [readFragment, Method.get_bind, setIncoming_incomingReliableData,
          Function.update_self]
        rfl
    | some receivedData =>
        have hslot : (self.setIncoming i (some receivedData)).incomingReliableData i =
            some receivedData := by rw [setIncoming_incomingReliableData, Function.update_self]
        have hoverflows : (∃ other, some receivedData = some other ∧
            arrival.header.Overflows other arrival.reader) ↔
            header.Overflows receivedData reader' := by
          simp [arrival]
        rw [hoverflows]
        obtain h | ⟨hno, ⟨hfits, h⟩ | ⟨hfits, e, h⟩⟩ := readFragment_cases reader' hslot hend
        · exact .inl h
        · refine .inr ⟨hno, .inl ⟨_, by rw [Option.bind_some, if_pos hfits], ?_⟩⟩
          rw [h, setIncoming_setIncoming, Option.map_some, if_pos hfits]
        · refine .inr ⟨hno, .inr ⟨by rw [Option.bind_some, if_neg hfits], e, ?_⟩⟩
          rw [h, setIncoming_setIncoming, Option.map_some, if_neg hfits]

/-! ## All the sections of a packet -/

/-- The sections of the streams, up to the first that cannot be taken, and the
reader behind them if all of them can. -/
def arrivals (self : NetChannel) : (streams : List (Fin MAX_STREAMS)) → BitReader →
    List Arrival × Option BitReader
  | [], reader => ([], some reader)
  | i :: streams, reader =>
      match (reader.readBit : Result _) with
      | .ok (false, reader) => self.arrivals streams reader
      | .ok (true, reader) =>
          match SectionHeader.read reader with
          | .ok (header, reader) =>
              let arrival : Arrival := ⟨i, header, reader, self.incomingReliableData i⟩
              match arrival.behind with
              | some behind =>
                  let (rest, last) := self.arrivals streams behind
                  (arrival :: rest, last)
              | none => ([arrival], none)
          | _ => ([], none)
      | _ => ([], none)

/-- Only the slots of the streams are looked at. -/
theorem arrivals_congr {self self' : NetChannel} {streams : List (Fin MAX_STREAMS)}
    (h : ∀ i ∈ streams, self.incomingReliableData i = self'.incomingReliableData i)
    (reader : BitReader) : self.arrivals streams reader = self'.arrivals streams reader := by
  induction streams generalizing reader with
  | nil => rfl
  | cons i streams ih =>
      have hrest := ih fun j hj => h j (List.mem_cons_of_mem i hj)
      simp only [arrivals, h i List.mem_cons_self, hrest]

/-- The sections are of the streams that are read, each with the transfer that is in
the slot at the time. -/
theorem mem_arrivals {self : NetChannel} {streams : List (Fin MAX_STREAMS)} {reader : BitReader}
    {arrival : Arrival} (h : arrival ∈ (self.arrivals streams reader).1) :
    arrival.stream ∈ streams ∧ arrival.slot = self.incomingReliableData arrival.stream := by
  induction streams generalizing reader with
  | nil => cases h
  | cons i streams ih =>
      have htail : ∀ {reader}, arrival ∈ (self.arrivals streams reader).1 →
          arrival.stream ∈ i :: streams ∧ arrival.slot = self.incomingReliableData arrival.stream :=
        fun h => (ih h).imp_left (List.mem_cons_of_mem i)
      rw [arrivals] at h
      split at h
      · exact htail h
      · split at h
        · dsimp only at h
          split at h
          · obtain rfl | h := List.mem_cons.mp h
            · exact ⟨List.mem_cons_self, rfl⟩
            · exact htail h
          · obtain rfl := List.mem_singleton.mp h
            exact ⟨List.mem_cons_self, rfl⟩
        · cases h
      · cases h

/-- The sections have settled their slots, and nothing else has changed. -/
structure Arrived (channel : NetChannel) (sections : List Arrival) (later : NetChannel) : Prop where
  upTo : UpToIncoming channel later
  left : ∀ arrival ∈ sections, later.incomingReliableData arrival.stream = arrival.left
  other : ∀ i, (∀ arrival ∈ sections, arrival.stream ≠ i) →
    later.incomingReliableData i = channel.incomingReliableData i

/-- Without sections the channel stays. -/
theorem Arrived.nil (self : NetChannel) : Arrived self [] self := ⟨rfl, nofun, fun _ _ => rfl⟩

/-- A section that leaves its slot, and other sections behind it for other streams,
have left all their slots. -/
theorem Arrived.cons {self later : NetChannel} {arrival : Arrival} {sections : List Arrival}
    (h : Arrived (self.setIncoming arrival.stream arrival.left) sections later)
    (hother : ∀ other ∈ sections, other.stream ≠ arrival.stream) :
    Arrived self (arrival :: sections) later where
  upTo := h.upTo.of_setIncoming
  left := by
    intro other hmem
    obtain rfl | hmem := List.mem_cons.mp hmem
    · rw [h.other _ hother, setIncoming_incomingReliableData, Function.update_self]
    · exact h.left other hmem
  other := by
    intro i hi
    have hne : i ≠ arrival.stream := Ne.symm (hi arrival List.mem_cons_self)
    rw [h.other i fun other hmem => hi other (List.mem_cons_of_mem _ hmem),
      setIncoming_incomingReliableData, Function.update_of_ne hne]

/-- What becomes of the sections: one of them overflows, or they settle their
slots and all of them are taken, or the last one is refused. -/
inductive Settles (channel : NetChannel) (sections : List Arrival) :
    Option BitReader → Outcome Error BitReader × NetChannel → Prop where
  | overflow {last : Option BitReader} {later : NetChannel}
      (h : ∃ arrival ∈ sections, arrival.Overflows) : Settles channel sections last (.panic, later)
  | taken {behind : BitReader} {later : NetChannel}
      (hno : ∀ arrival ∈ sections, ¬ arrival.Overflows) (h : Arrived channel sections later) :
      Settles channel sections (some behind) (.ok behind, later)
  | refused {e : Error} {later : NetChannel}
      (hno : ∀ arrival ∈ sections, ¬ arrival.Overflows) (h : Arrived channel sections later) :
      Settles channel sections none (.err e, later)

/-- What one section has settled, the sections behind it leave alone. -/
theorem Settles.cons {self : NetChannel} {arrival : Arrival} {sections : List Arrival}
    {last : Option BitReader} {read : Outcome Error BitReader × NetChannel}
    (h : Settles (self.setIncoming arrival.stream arrival.left) sections last read)
    (hno : ¬ arrival.Overflows) (hother : ∀ other ∈ sections, other.stream ≠ arrival.stream) :
    Settles self (arrival :: sections) last read := by
  cases h with
  | overflow h =>
      obtain ⟨other, hmem, h⟩ := h
      exact .overflow ⟨other, List.mem_cons_of_mem _ hmem, h⟩
  | taken hrest h => exact .taken (List.forall_mem_cons.mpr ⟨hno, hrest⟩) (h.cons hother)
  | refused hrest h => exact .refused (List.forall_mem_cons.mpr ⟨hno, hrest⟩) (h.cons hother)

/-- By induction on the streams: the loop settles the sections that the packet has,
up to the first that overflows or is refused. -/
theorem readStreams_settles {streams : List (Fin MAX_STREAMS)} (hstreams : streams.Nodup)
    (reader : BitReader) (self : NetChannel) :
    Settles self (self.arrivals streams reader).1 (self.arrivals streams reader).2
      (readStreams streams reader self) := by
  induction streams generalizing reader self with
  | nil => exact .taken nofun (Arrived.nil self)
  | cons i streams ih =>
      obtain ⟨hi, hstreams⟩ := List.nodup_cons.mp hstreams
      simp only [arrivals, readStreams]
      cases hbit : (reader.readBit : Result _) with
      | err e => exact .refused nofun (Arrived.nil self)
      | panic => exact absurd hbit (BitReader.readBit_ne_panic reader)
      | ok x =>
          obtain ⟨present, reader⟩ := x
          rw [Method.lift_bind_ok]
          cases present with
          | false => exact ih hstreams reader self
          | true =>
              dsimp only
              rw [if_pos rfl]
              cases hread : SectionHeader.read reader with
              | err e =>
                  have hfail : readIncomingSubchannelData reader i self = (.err e, self) := by
                    unfold readIncomingSubchannelData
                    rw [SectionHeader.readFragmentHeader_eq, hread]
                    rfl
                  rw [Method.bind_err hfail]
                  exact .refused nofun (Arrived.nil self)
              | panic => exact absurd hread (SectionHeader.read_ne_panic reader)
              | ok x =>
                  obtain ⟨header, reader'⟩ := x
                  obtain ⟨hover, hpanic⟩ | ⟨hno, ⟨behind, hbehind, hok⟩ | ⟨hbehind, e, herr⟩⟩ :=
                    readIncomingSubchannelData_cases i self hread
                  · rw [Method.bind_panic (Prod.ext hpanic rfl)]
                    cases hbehind :
                      Arrival.behind ⟨i, header, reader', self.incomingReliableData i⟩ with
                    | none =>
                        simp only [hbehind]
                        exact .overflow ⟨_, List.mem_singleton_self _, hover⟩
                    | some behind =>
                        simp only [hbehind]
                        exact .overflow ⟨_, List.mem_cons_self, hover⟩
                  · simp only [hbehind]
                    rw [Method.bind_ok hok]
                    have hrest := ih hstreams behind
                      (self.setIncoming i
                        (Arrival.left ⟨i, header, reader', self.incomingReliableData i⟩))
                    have hslots : ∀ slot, ∀ j ∈ streams,
                        (self.setIncoming i slot).incomingReliableData j =
                          self.incomingReliableData j := by
                      intro slot j hj
                      rw [setIncoming_incomingReliableData,
                        Function.update_of_ne (by rintro rfl; exact hi hj)]
                    rw [arrivals_congr (hslots _)] at hrest
                    refine Settles.cons hrest hno fun other hmem heq => hi ?_
                    have hmem := (mem_arrivals hmem).1
                    rwa [heq] at hmem
                  · simp only [hbehind]
                    rw [Method.bind_err herr]
                    exact .refused (List.forall_mem_singleton.mpr hno) ((Arrived.nil _).cons nofun)

end NetChannel

end QuickplayServer
