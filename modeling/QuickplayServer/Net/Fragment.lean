import QuickplayServer.Net.NetChannel

/-!
# QuickplayServer.Net.Fragment

Fragments of a transfer and the section of a packet that carries them.

A `Fragment` is a run of consecutive 256-byte fragments of a transfer that
fits the fields of a packet.  `writeFragment_eq` says
which bits the sender writes for it, `reads_readFragmentHeader` and
`readFragment_eq` that the receiver reads them back and copies the bytes to
where they came from.
-/

namespace QuickplayServer

/-! ## Fragment arithmetic -/

theorem FRAGMENT_SIZE_eq : FRAGMENT_SIZE = 256 := rfl

/-- The number of fragments is the size in units of a fragment, rounded up. -/
theorem fragments_eq (bytes : Nat) : fragments bytes = (bytes + 255) / 256 := by
  rw [fragments, FRAGMENT_SIZE_eq, Nat.add_sub_assoc (by decide)]

@[simp] theorem fragments_zero : fragments 0 = 0 := rfl

/-- Up to 256 bytes below 2^32 the fragments can be counted in 32 bits. -/
theorem bytesToFragments_of_lt {bytes : Nat} (h : bytes + 256 < 2 ^ 32) :
    bytesToFragments bytes = .ok (fragments bytes) := by
  have hadd : bytes + FRAGMENT_SIZE < 2 ^ 32 := h
  have hsub : 1 ≤ bytes + FRAGMENT_SIZE := by rw [FRAGMENT_SIZE_eq]; omega
  rw [bytesToFragments, Outcome.add32_of_lt hadd, Outcome.ok_bind, Outcome.checkedSub_of_le hsub]
  rfl

/-- The fragments are counted exactly if the size leaves room for the rounding, and
the count is then the right one. -/
theorem bytesToFragments_eq_ok {bytes total : Nat} (h : bytesToFragments bytes = .ok total) :
    bytes + 256 < 2 ^ 32 ∧ total = fragments bytes := by
  have hbind := h
  rw [bytesToFragments, Outcome.bind_eq_ok] at hbind
  obtain ⟨sum, hsum, -⟩ := hbind
  have hlt : bytes + 256 < 2 ^ 32 := (Outcome.add32_eq_ok.mp hsum).1
  rw [bytesToFragments_of_lt hlt, Outcome.ok.injEq] at h
  exact ⟨hlt, h.symm⟩

/-- Within 256 bytes of 2^32 and above, rounding up overflows. -/
theorem bytesToFragments_of_le {bytes : Nat} (h : 2 ^ 32 ≤ bytes + 256) :
    bytesToFragments bytes = .panic := by
  have hadd : ¬ bytes + FRAGMENT_SIZE < 2 ^ 32 := Nat.not_lt.mpr h
  rw [bytesToFragments, Outcome.add32, if_neg hadd, Outcome.panic_bind]

/-- A transfer whose size fits the field for it has a number of fragments. -/
theorem OutgoingReliableData.totalFragments_eq {stream : OutgoingReliableData}
    (h : stream.data.length < 2 ^ 26) :
    stream.totalFragments = .ok (fragments stream.data.length) :=
  bytesToFragments_of_lt (show stream.data.length + 256 < 2 ^ 32 by omega)

/-- The length of the last fragments of a transfer, cut at its end. -/
theorem adjustLength_eq {bytes start num : Nat} (hinside : 256 * start ≤ bytes)
    (hlast : start + num = fragments bytes) :
    adjustLength bytes (num * FRAGMENT_SIZE) = .ok (bytes - 256 * start) := by
  rw [fragments_eq] at hlast
  have hrest : bytes % FRAGMENT_SIZE ≤ FRAGMENT_SIZE :=
    Nat.le_of_lt (Nat.mod_lt _ (by decide))
  rw [adjustLength, Outcome.checkedSub_of_le hrest, Outcome.ok_bind]
  by_cases hcut : FRAGMENT_SIZE - bytes % FRAGMENT_SIZE < FRAGMENT_SIZE
  · rw [if_pos hcut]
    rw [FRAGMENT_SIZE_eq] at hcut ⊢
    rw [Outcome.checkedSub_of_le (by omega), Outcome.ok.injEq]
    omega
  · rw [if_neg hcut, Outcome.pure_eq, Outcome.ok.injEq]
    rw [FRAGMENT_SIZE_eq] at hcut ⊢
    omega

/-! ## Slices -/

/-- A slice within the data can be taken. -/
theorem getSlice_of_le {data : List UInt8} {offset length : Nat}
    (h : offset + length ≤ data.length) :
    getSlice data offset length = some ((data.drop offset).take length) := if_pos h

/-- Only slices within the data can be taken. -/
theorem getSlice_eq_some {data slice : List UInt8} {offset length : Nat}
    (h : getSlice data offset length = some slice) : offset + length ≤ data.length := by
  unfold getSlice at h
  split at h
  case isTrue hle => exact hle
  case isFalse => simp at h

/-- Writing a slice within the data keeps its length. -/
theorem length_setSlice {data slice : List UInt8} {offset : Nat}
    (h : offset + slice.length ≤ data.length) :
    (setSlice data offset slice).length = data.length := by
  simp only [setSlice, List.length_append, List.length_take, List.length_drop]
  omega

/-- Inside the slice the new bytes are found, outside it the old ones. -/
theorem getElem?_setSlice {data slice : List UInt8} {offset : Nat}
    (h : offset + slice.length ≤ data.length) (i : Nat) :
    (setSlice data offset slice)[i]? =
      if offset ≤ i ∧ i < offset + slice.length then slice[i - offset]? else data[i]? := by
  have hoffset : (data.take offset).length = offset := by rw [List.length_take]; omega
  rw [setSlice, List.append_assoc]
  by_cases hlow : i < offset
  · rw [List.getElem?_append_left (by rw [hoffset]; exact hlow), List.getElem?_take_of_lt hlow,
      if_neg (by omega)]
  · rw [List.getElem?_append_right (by rw [hoffset]; omega), hoffset]
    by_cases hhigh : i < offset + slice.length
    · rw [List.getElem?_append_left (by omega), if_pos ⟨by omega, hhigh⟩]
    · rw [List.getElem?_append_right (by omega), List.getElem?_drop, if_neg (by omega)]
      congr 1
      omega

/-! ## Fragments -/

/-- Consecutive fragments of the transfer of `data`. -/
@[ext] structure Fragment where
  data : List UInt8
  start : Nat
  num : Nat
  le : start + num ≤ fragments data.length
  inside : 256 * start ≤ data.length
  /-- The number of fragments can be computed in a `u32`. -/
  size : data.length + 256 < 2 ^ 32
  /-- The fragments are the whole transfer, or where they are and the size of
  the transfer fit the fields of a multi block. -/
  fields : num = fragments data.length ∨
    start < 2 ^ (MAX_FILE_SIZE_BITS - FRAGMENT_BITS) ∧ num < 2 ^ 3 ∧
      (start = 0 → data.length < 2 ^ MAX_FILE_SIZE_BITS)

namespace Fragment

/-- The bytes of the fragments. -/
def bytes (p : Fragment) : List UInt8 := (p.data.drop (256 * p.start)).take (256 * p.num)

/-- The fragments are the whole transfer. -/
def IsSingleBlock (p : Fragment) : Prop := p.num = fragments p.data.length

instance (p : Fragment) : Decidable p.IsSingleBlock := inferInstanceAs (Decidable (_ = _))

/-- The whole transfer begins with its first fragment. -/
theorem IsSingleBlock.start_eq {p : Fragment} (h : p.IsSingleBlock) : p.start = 0 := by
  have hle := p.le
  unfold IsSingleBlock at h
  omega

/-- The first fragment of a multi block fits the field for it. -/
theorem start_lt {p : Fragment} (h : ¬ p.IsSingleBlock) :
    p.start < 2 ^ (MAX_FILE_SIZE_BITS - FRAGMENT_BITS) := (p.fields.resolve_left h).1

/-- The number of fragments of a multi block fits its three bits. -/
theorem num_lt {p : Fragment} (h : ¬ p.IsSingleBlock) : p.num < 2 ^ 3 :=
  (p.fields.resolve_left h).2.1

/-- The size of a transfer that is opened by a multi block fits the field for it. -/
theorem length_lt {p : Fragment} (h : ¬ p.IsSingleBlock) (hstart : p.start = 0) :
    p.data.length < 2 ^ MAX_FILE_SIZE_BITS := (p.fields.resolve_left h).2.2 hstart

/-- The fragments of the transfer can be counted. -/
theorem totalFragments_eq (p : Fragment) :
    bytesToFragments p.data.length = .ok (fragments p.data.length) := bytesToFragments_of_lt p.size

/-- The offset of the fragments can be computed in 32 bits. -/
theorem mul_start (p : Fragment) :
    (Outcome.mul32 p.start FRAGMENT_SIZE : Result Nat) = .ok (p.start * FRAGMENT_SIZE) := by
  have hinside := p.inside
  have hsize := p.size
  rw [Outcome.mul32_of_lt]
  rw [FRAGMENT_SIZE_eq]
  omega

/-- The length of the fragments can be computed in 32 bits. -/
theorem mul_num (p : Fragment) :
    (Outcome.mul32 p.num FRAGMENT_SIZE : Result Nat) = .ok (p.num * FRAGMENT_SIZE) := by
  have hle := p.le
  have hsize := p.size
  rw [Outcome.mul32_of_lt]
  rw [fragments_eq] at hle
  rw [FRAGMENT_SIZE_eq]
  omega

/-- The end of the fragments can be computed in 32 bits. -/
theorem add_num (p : Fragment) :
    (Outcome.add32 p.start p.num : Result Nat) = .ok (p.start + p.num) := by
  have hle := p.le
  have hsize := p.size
  rw [Outcome.add32_of_lt]
  rw [fragments_eq] at hle
  omega

/-- The fragments are full, but for the last one of the transfer, which may be
shorter. -/
theorem length_bytes (p : Fragment) :
    p.bytes.length = min (256 * p.num) (p.data.length - 256 * p.start) := by
  simp [bytes]

/-- The bytes of the fragments lie within the transfer. -/
theorem offset_add_length_le (p : Fragment) : 256 * p.start + p.bytes.length ≤ p.data.length := by
  have := p.inside
  rw [length_bytes]
  omega

/-- Only the last fragments of a transfer are cut short. -/
theorem length_bytes_eq (p : Fragment) :
    p.bytes.length = if p.start + p.num = fragments p.data.length then p.data.length - 256 * p.start
      else 256 * p.num := by
  have hle := p.le
  rw [length_bytes]
  split
  case isTrue hlast => rw [fragments_eq] at hlast; omega
  case isFalse hmore => rw [fragments_eq] at hle hmore; omega

/-- The fields in front of the bytes. -/
def headerBits (p : Fragment) : List Bool :=
  if p.IsSingleBlock then
    [false, false] ++ varintBits p.data.length
  else
    [true] ++ BitList.ofNat (MAX_FILE_SIZE_BITS - FRAGMENT_BITS) p.start ++ BitList.ofNat 3 p.num ++
      if p.start = 0 then [false, false] ++ BitList.ofNat MAX_FILE_SIZE_BITS p.data.length else []

/-- The section of stream 0 that carries the fragments. -/
def bits (p : Fragment) : List Bool := [true] ++ p.headerBits ++ BitList.ofBytes p.bytes

/-- The transfer that the fields open, if the fragments are its first. -/
def opened (p : Fragment) : Option IncomingReliableData :=
  if p.start = 0 then some (IncomingReliableData.new none p.data.length) else none

/-- What is read from the fields. -/
def header (p : Fragment) : NetChannel.FragmentHeader where
  startFragment := p.start
  numFragments := p.num
  offset := p.start * FRAGMENT_SIZE
  length := p.num * FRAGMENT_SIZE
  receivedData := p.opened

end Fragment

/-- The transfer with the fragments copied into it. -/
def IncomingReliableData.store (receivedData : IncomingReliableData) (p : Fragment) :
    IncomingReliableData :=
  { receivedData with
    ackedFragments := receivedData.ackedFragments + p.num
    data := setSlice receivedData.data (256 * p.start) p.bytes }

/-! ## Writing and reading a fragment -/

namespace NetChannel

/-- The length that both sides compute for fragments of a transfer. -/
theorem sliceLength_eq {bytes start num : Nat} (hinside : 256 * start ≤ bytes) :
    (if start + num = fragments bytes then adjustLength bytes (num * FRAGMENT_SIZE)
      else pure (num * FRAGMENT_SIZE) : Result Nat) =
      .ok (if start + num = fragments bytes then bytes - 256 * start else 256 * num) := by
  split
  case isTrue hlast => exact adjustLength_eq hinside hlast
  case isFalse hmore => rw [Outcome.pure_eq, FRAGMENT_SIZE_eq, Nat.mul_comm]

/-- It is that of the fragments' bytes. -/
theorem fragment_length_eq (p : Fragment) :
    (if p.start + p.num = fragments p.data.length then
        adjustLength p.data.length (p.num * FRAGMENT_SIZE)
      else pure (p.num * FRAGMENT_SIZE) : Result Nat) = .ok p.bytes.length := by
  rw [sliceLength_eq p.inside, Fragment.length_bytes_eq]

variable [BitstreamIo]

/-- Writing a fragment appends its bits, unless it is a single block that does
not pass the size assertion. -/
theorem writeFragment_eq {configuration : Configuration} {stream : OutgoingReliableData}
    {p : Fragment} (hdata : stream.data = p.data) (w : BitWriter) :
    writeFragment configuration p.start p.num stream w =
      if p.IsSingleBlock ∧ configuration.server.maxReliablePacketSize ≤ p.data.length then .panic
      else .ok ⟨w.bits ++ p.bits⟩ := by
  have hle := p.offset_add_length_le
  have hsize := p.size
  have htotal : stream.totalFragments = .ok (fragments p.data.length) := by
    rw [OutgoingReliableData.totalFragments, OutgoingReliableData.totalBytes, hdata,
      p.totalFragments_eq]
  have hbytes : stream.totalBytes = p.data.length := by
    rw [OutgoingReliableData.totalBytes, hdata]
  have hslice : getSlice stream.data (p.start * FRAGMENT_SIZE) p.bytes.length = some p.bytes := by
    rw [hdata, FRAGMENT_SIZE_eq, Nat.mul_comm, getSlice_of_le hle, Fragment.length_bytes,
      Fragment.bytes, Option.some.injEq, List.take_eq_take_iff, List.length_drop]
    omega
  unfold writeFragment
  simp only [BitWriter.writeBit_eq, Outcome.ok_bind, p.mul_start, p.mul_num, p.add_num, htotal,
    hbytes,
    fragment_length_eq p]
  by_cases hsingle : p.IsSingleBlock
  · have hsingle' : p.num = fragments p.data.length := hsingle
    have hzero := hsingle.start_eq
    have hwhole : p.bytes.length = p.data.length := by
      rw [Fragment.length_bytes_eq, if_pos (by omega), hzero]; rfl
    by_cases hfit : p.data.length < configuration.server.maxReliablePacketSize
    · have hoffset : p.start * FRAGMENT_SIZE = 0 := by rw [hzero]; exact Nat.zero_mul _
      simp only [decide_eq_true hsingle', hwhole, Outcome.assert_true, Outcome.assert_of _ hfit,
        Outcome.assert_of _ hoffset, if_true, Outcome.ok_bind,
        writeVarint32_eq (show p.data.length < 2 ^ 32 by omega)]
      rw [hwhole] at hslice
      simp only [hslice, Outcome.ofOption_some, Outcome.ok_bind, BitWriter.writeBytes_eq,
        Nat.not_le.mpr hfit, and_false, if_false, Fragment.bits, Fragment.headerBits,
        if_pos hsingle]
      simp
    · simp only [decide_eq_true hsingle', hwhole, Outcome.assert_true,
        Outcome.assert_of_not _ hfit, if_true, Outcome.ok_bind, Outcome.panic_bind, hsingle,
        Nat.le_of_not_lt hfit, and_self]
  · have hsingle' : ¬ p.num = fragments p.data.length := hsingle
    have hzero : p.start * FRAGMENT_SIZE = 0 ↔ p.start = 0 := by rw [FRAGMENT_SIZE_eq]; omega
    simp only [decide_eq_false hsingle', Bool.false_eq_true, if_false, Bool.not_false,
      BitWriter.writeOut_of_lt (Fragment.start_lt hsingle),
      BitWriter.writeOut_of_lt (Fragment.num_lt hsingle), Outcome.ok_bind, hzero, hsingle,
        false_and]
    by_cases hfirst : p.start = 0
    · simp only [hfirst, if_true, Outcome.ok_bind,
        BitWriter.writeOut_of_lt (Fragment.length_lt hsingle hfirst)]
      rw [hfirst] at hslice
      simp only [hslice, Outcome.ofOption_some, Outcome.ok_bind, BitWriter.writeBytes_eq,
        Fragment.bits, Fragment.headerBits, if_neg hsingle, hfirst]
      simp
    · simp only [hfirst, if_false, Outcome.pure_eq, Outcome.ok_bind, hslice, Outcome.ofOption_some,
        BitWriter.writeBytes_eq, Fragment.bits, Fragment.headerBits, if_neg hsingle]
      simp

/-- Whatever is written as a fragment is one. -/
theorem exists_fragment {configuration : Configuration} {stream : OutgoingReliableData}
    {start num : Nat} {w w' : BitWriter}
    (h : writeFragment configuration start num stream w = .ok w') :
    ∃ p : Fragment, p.data = stream.data ∧ p.start = start ∧ p.num = num ∧
    w' = ⟨w.bits ++ p.bits⟩ := by
  have hwritten := h
  unfold writeFragment at h
  simp only [BitWriter.writeBit_eq, Outcome.ok_bind, Outcome.bind_eq_ok] at h
  obtain ⟨offset, hoffset, length, hlength, packetTotal, hpacketTotal, total, htotal, sliceLength,
    hsliceLength, fields, hfields, slice, hslice, -⟩ := h
  obtain ⟨-, rfl⟩ := Outcome.mul32_eq_ok.mp hoffset
  obtain ⟨-, rfl⟩ := Outcome.mul32_eq_ok.mp hlength
  obtain ⟨-, rfl⟩ := Outcome.add32_eq_ok.mp hpacketTotal
  obtain ⟨hsize, rfl⟩ := bytesToFragments_eq_ok htotal
  have hbound := getSlice_eq_some (Outcome.ofOption_eq_ok.mp hslice)
  rw [OutgoingReliableData.totalBytes] at *
  rw [FRAGMENT_SIZE_eq] at hbound
  have hle : start + num ≤ fragments stream.data.length := by
    split at hsliceLength
    case isTrue hlast => exact hlast.le
    case isFalse hmore =>
      rw [Outcome.pure_eq, Outcome.ok.injEq, FRAGMENT_SIZE_eq] at hsliceLength
      rw [fragments_eq]
      omega
  have hfields' : num = fragments stream.data.length ∨
      start < 2 ^ (MAX_FILE_SIZE_BITS - FRAGMENT_BITS) ∧ num < 2 ^ 3 ∧
        (start = 0 → stream.data.length < 2 ^ MAX_FILE_SIZE_BITS) := by
    by_cases hsingle : num = fragments stream.data.length
    · exact .inl hsingle
    · simp only [decide_eq_false hsingle, Bool.false_eq_true, if_false, Outcome.bind_eq_ok,
        BitWriter.writeOut_eq_ok] at hfields
      obtain ⟨_, ⟨hstart, -⟩, _, ⟨hnum, -⟩, hrest⟩ := hfields
      refine .inr ⟨hstart, hnum, fun hfirst => ?_⟩
      simp only [hfirst, Nat.zero_mul, if_true,
        BitWriter.writeOut_eq_ok] at hrest
      exact hrest.1
  refine ⟨⟨stream.data, start, num, hle, by omega, hsize, hfields'⟩, rfl, rfl, rfl, ?_⟩
  have heq : writeFragment configuration start num stream w = _ :=
    writeFragment_eq (p := ⟨stream.data, start, num, hle, by omega, hsize, hfields'⟩) rfl w
  rw [hwritten] at heq
  split at heq
  · simp at heq
  · exact Outcome.ok.inj heq

/-- The bytes of the fragments that a subchannel holds are always found. -/
theorem writeFragment_ne_noSlice {configuration : Configuration} {stream : OutgoingReliableData}
    {start num : Nat} (hsmall : stream.data.length < 2 ^ 26) (hpos : 0 < num)
    (hle : start + num ≤ fragments stream.data.length) (w : BitWriter) :
    writeFragment configuration start num stream w ≠ .err .noSliceForOutgoing := by
  have hfragments : fragments stream.data.length ≤ 2 ^ 18 := by rw [fragments_eq]; omega
  have hoffset : start * FRAGMENT_SIZE = 256 * start := by rw [FRAGMENT_SIZE_eq, Nat.mul_comm]
  have hinside : 256 * start ≤ stream.data.length := by rw [fragments_eq] at hle; omega
  have hslice : 256 * start + (if start + num = fragments stream.data.length then
      stream.data.length - 256 * start else 256 * num) ≤ stream.data.length := by
    rw [fragments_eq] at hle ⊢
    split <;> omega
  have hstart : start * FRAGMENT_SIZE < 2 ^ 32 := by rw [hoffset]; omega
  have hnum : num * FRAGMENT_SIZE < 2 ^ 32 := by rw [FRAGMENT_SIZE_eq]; omega
  intro h
  unfold writeFragment at h
  simp only [BitWriter.writeBit_eq, Outcome.ok_bind, Outcome.mul32_of_lt hstart,
    Outcome.mul32_of_lt hnum, Outcome.add32_of_lt (show start + num < 2 ^ 32 by omega),
    OutgoingReliableData.totalFragments_eq hsmall, OutgoingReliableData.totalBytes,
    sliceLength_eq hinside, hoffset, getSlice_of_le hslice, Outcome.ofOption_some,
    BitWriter.writeBytes_eq, writeVarint32_eq (show stream.data.length < 2 ^ 32 by omega)] at h
  -- what is left are the assertions of a single block and the fields of a multi block
  simp only [Outcome.bind_eq_err, reduceCtorEq, and_false, exists_false, or_false] at h
  split at h
  · simp only [Outcome.bind_eq_err, reduceCtorEq, and_false, exists_false, or_false] at h
    obtain h | ⟨_, _, h | ⟨_, _, h⟩⟩ := h
    all_goals exact absurd h (Outcome.assert_ne_err _ _)
  · simp only [Outcome.bind_eq_err] at h
    obtain h | ⟨_, _, h | ⟨_, _, h⟩⟩ := h
    · exact absurd (BitWriter.writeOut_eq_err h) (by decide)
    · exact absurd (BitWriter.writeOut_eq_err h) (by decide)
    · split at h
      · exact absurd (BitWriter.writeOut_eq_err h) (by decide)
      · simp at h

/-- The fields are read back. -/
theorem reads_readFragmentHeader (p : Fragment) :
    Reads readFragmentHeader p.headerBits p.header := by
  have hsizes := p.size
  intro r tl hr
  unfold Fragment.headerBits at hr ⊢
  by_cases hsingle : p.IsSingleBlock
  · simp only [if_pos hsingle, List.append_assoc] at hr ⊢
    have hsingle' : p.num = fragments p.data.length := hsingle
    have hzero := hsingle.start_eq
    have hmulti := BitReader.readBit_of_rest (ε := Error) hr
    have hr₁ := BitReader.rest_skip_one hr
    have hcompressed := BitReader.readBit_of_rest (ε := Error) hr₁
    have hr₂ := BitReader.rest_skip_one hr₁
    have hsize := reads_readVarint32 (show p.data.length < 2 ^ 32 by omega) _ _ hr₂
    have htotal : (IncomingReliableData.new none p.data.length).totalFragments =
        .ok (fragments p.data.length) := p.totalFragments_eq
    unfold readFragmentHeader
    simp only [hmulti, hcompressed, hsize, htotal, Outcome.ok_bind, Bool.false_eq_true, if_false,
      ← hsingle', p.mul_num, Outcome.pure_eq]
    simp only [BitReader.skip_skip, Fragment.header, Fragment.opened, hzero, if_true, Nat.zero_mul,
      List.length_append, List.length_cons, List.length_nil]
  · simp only [if_neg hsingle, List.append_assoc] at hr ⊢
    rw [List.singleton_append] at hr
    have hmulti := BitReader.readBit_of_rest (ε := Error) hr
    have hr₁ := BitReader.rest_skip_one hr
    have hstartField := Reads.readIn (ε := Error) (Fragment.start_lt hsingle) _ _ hr₁
    have hr₂ := BitReader.rest_skip_of_append hr₁
    have hnumField := Reads.readIn (ε := Error) (Fragment.num_lt hsingle) _ _ hr₂
    have hr₃ := BitReader.rest_skip_of_append hr₂
    have hzero : p.start * FRAGMENT_SIZE = 0 ↔ p.start = 0 := by rw [FRAGMENT_SIZE_eq]; omega
    unfold readFragmentHeader
    simp only [hmulti, hstartField, hnumField, Outcome.ok_bind, if_true, p.mul_start, p.mul_num,
      hzero]
    by_cases hfirst : p.start = 0
    · simp only [if_pos hfirst, List.append_assoc] at hr₃ ⊢
      have hfile := BitReader.readBit_of_rest (ε := Error) hr₃
      have hr₄ := BitReader.rest_skip_one hr₃
      have hcompressed := BitReader.readBit_of_rest (ε := Error) hr₄
      have hr₅ := BitReader.rest_skip_one hr₄
      have hsize := Reads.readIn (ε := Error) (Fragment.length_lt hsingle hfirst) _ _ hr₅
      simp only [hfile, hcompressed, hsize, Outcome.ok_bind, Bool.false_eq_true, if_false,
        Outcome.pure_eq]
      simp only [BitReader.skip_skip, Fragment.header, Fragment.opened, hfirst, if_true,
        Nat.zero_mul, List.length_append, List.length_cons, List.length_nil]
      congr 3
    · simp [Fragment.header, Fragment.opened, hfirst, BitReader.skip_skip, Nat.add_comm,
        Nat.add_left_comm]

/-- Fragments of the transfer in progress are copied into it and counted. -/
theorem readFragment_eq {stream : Fin MAX_STREAMS} {p : Fragment} {r : BitReader} {tl : List Bool}
    {self : NetChannel} {receivedData : IncomingReliableData}
    (hslot : self.incomingReliableData stream = some receivedData)
    (hbytes : receivedData.bytes = p.data.length)
    (hdata : receivedData.data.length = p.data.length)
    (hacked : receivedData.ackedFragments + p.num < 2 ^ 32)
    (hr : r.rest = BitList.ofBytes p.bytes ++ tl) :
    readFragment stream p.start p.num (p.start * FRAGMENT_SIZE) (p.num * FRAGMENT_SIZE) r self =
      (.ok (r.skip (BitList.ofBytes p.bytes).length),
        self.setIncoming stream (some (receivedData.store p))) := by
  have hle := p.offset_add_length_le
  have htotal : receivedData.totalFragments = .ok (fragments p.data.length) := by
    rw [IncomingReliableData.totalFragments, hbytes, p.totalFragments_eq]
  have hoffset : p.start * FRAGMENT_SIZE = 256 * p.start := by
    rw [FRAGMENT_SIZE_eq, Nat.mul_comm]
  have hslice : getSlice receivedData.data (256 * p.start) p.bytes.length = some _ :=
    getSlice_of_le (hdata ▸ hle)
  have hread := Reads.readBytes (ε := Error) p.bytes r tl hr
  unfold readFragment
  simp only [Method.get_bind, hslot, p.add_num, Method.lift_bind_ok, htotal,
    hbytes, fragment_length_eq p, Nat.not_lt.mpr p.le, if_false, hoffset, hslice, hread,
    Outcome.add32_of_lt hacked, Method.modify_bind, Method.pure_apply]
  rw [IncomingReliableData.store, hbytes]

end NetChannel

end QuickplayServer
