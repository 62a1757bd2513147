import QuickplayServer.Net.Wire

/-!
# QuickplayServer.Net.ReadSection

What the receiver does with the reliable section of a packet.

A section opens a transfer or continues the one in progress
(`readStreams_eq`), or it is refused because there is none in progress
(`readStreams_of_none`).  A transfer that is complete is decoded and its slot
is free again.
-/

namespace QuickplayServer

/-- Nothing of the slot is ready to be decoded. -/
def Quiet (slot : Option IncomingReliableData) : Prop :=
  ∀ receivedData ∈ slot, ∃ total, receivedData.totalFragments = .ok total ∧
    receivedData.ackedFragments < total

theorem quiet_none : Quiet none := nofun

namespace NetChannel

/-- The slot of stream 0 once the fields of a fragment are read. -/
def opened (self : NetChannel) (p : Fragment) : Option IncomingReliableData :=
  p.opened.or (self.incomingReliableData 0)

/-- The channel after it took the fragments into `receivedData`. -/
def taken (self : NetChannel) (s : Section) (receivedData : IncomingReliableData) : NetChannel :=
  { self.setIncoming 0 (some (receivedData.store s.fragment)) with
    inReliableState := self.inReliableState ^^^ (1#8 <<< s.subchannel.val) }

/-- The channel after it took the fragments into `receivedData` and looked for
complete transfers. -/
def continued (self : NetChannel) (s : Section) (receivedData : IncomingReliableData) :
    NetChannel :=
  if receivedData.ackedFragments + s.fragment.num = fragments s.fragment.data.length then
    (self.taken s receivedData).setIncoming 0 none
  else self.taken s receivedData

/-- The channel after the reliable section of a packet.  A section that opens no
transfer and continues none leaves it as it is. -/
def afterSection (self : NetChannel) : Option Section → NetChannel
  | none => self
  | some s =>
      match self.opened s.fragment with
      | none => self
      | some receivedData => self.continued s receivedData

/-- The transfer that the fragments are of. -/
structure Continues (receivedData : IncomingReliableData) (p : Fragment) : Prop where
  bytes : receivedData.bytes = p.data.length
  length : receivedData.data.length = p.data.length
  acked : receivedData.ackedFragments + p.num < 2 ^ 32

@[simp] theorem taken_incoming_zero (self : NetChannel) (s : Section)
    (receivedData : IncomingReliableData) :
    (self.taken s receivedData).incomingReliableData 0 = some (receivedData.store s.fragment) := by
  simp [taken]

@[simp] theorem taken_incoming_one (self : NetChannel) (s : Section)
    (receivedData : IncomingReliableData) :
    (self.taken s receivedData).incomingReliableData 1 = self.incomingReliableData 1 := by
  simp [taken]

theorem Continues.totalFragments_store {receivedData : IncomingReliableData} {p : Fragment}
    (h : Continues receivedData p) :
    (receivedData.store p).totalFragments = .ok (fragments p.data.length) := by
  rw [IncomingReliableData.totalFragments, IncomingReliableData.store, h.bytes, p.totalFragments_eq]

variable [BitstreamIo]

/-! ## Stream sections -/

theorem readIncomingSubchannelData_eq {self : NetChannel} {p : Fragment} {r : BitReader}
    {tl : List Bool} {receivedData : IncomingReliableData}
    (hr : r.rest = p.headerBits ++ (BitList.ofBytes p.bytes ++ tl))
    (hslot : self.opened p = some receivedData) (h : Continues receivedData p) :
    readIncomingSubchannelData r 0 self =
      (.ok (r.skip (p.headerBits.length + (BitList.ofBytes p.bytes).length)),
        self.setIncoming 0 (some (receivedData.store p))) := by
  have hheader := reads_readFragmentHeader p r _ hr
  have hr' := BitReader.rest_skip_of_append hr
  unfold readIncomingSubchannelData
  simp only [hheader, Method.lift_bind_ok, Fragment.header]
  unfold opened at hslot
  cases hopened : p.opened with
  | none =>
      have hslot' : self.incomingReliableData 0 = some receivedData := by
        simpa [hopened] using hslot
      simp only [readFragment_eq hslot' h.bytes h.length h.acked hr', BitReader.skip_skip]
  | some d =>
      obtain rfl : d = receivedData := by simpa [hopened] using hslot
      have hslot' : (self.setIncoming 0 (some d)).incomingReliableData 0 = some d := by simp
      simp only [Method.modify_bind, readFragment_eq hslot' h.bytes h.length h.acked hr',
        BitReader.skip_skip]
      simp [setIncoming]

theorem readIncomingSubchannelData_of_none {self : NetChannel} {p : Fragment} {r : BitReader}
    {tl : List Bool} (hr : r.rest = p.headerBits ++ (BitList.ofBytes p.bytes ++ tl))
    (hslot : self.opened p = none) :
    readIncomingSubchannelData r 0 self = (.err .noActiveSubchannelData, self) := by
  have hheader := reads_readFragmentHeader p r _ hr
  obtain ⟨hopened, hempty⟩ := Option.or_eq_none_iff.mp hslot
  unfold readIncomingSubchannelData
  simp only [hheader, Method.lift_bind_ok, Fragment.header, hopened, readFragment, Method.get_bind,
    hempty, Method.fail_apply]

/-- A stream that is in the packet is read, one that is not is passed over. -/
theorem readStreams_cons {i : Fin MAX_STREAMS} {streams : List (Fin MAX_STREAMS)} {r : BitReader}
    {present : Bool} {tl : List Bool} (hr : r.rest = present :: tl) (self : NetChannel) :
    readStreams (i :: streams) r self =
      if present then
        (readIncomingSubchannelData (r.skip 1) i >>= fun r => readStreams streams r :
          Method NetChannel Error BitReader) self
      else readStreams streams (r.skip 1) self := by
  rw [readStreams]
  simp only [BitReader.readBit_of_rest hr, Method.lift_bind_ok]
  cases present <;> rfl

/-- The streams of a section are read into the transfer that it continues. -/
theorem readStreams_eq {self : NetChannel} {p : Fragment} {r : BitReader} {tl : List Bool}
    {receivedData : IncomingReliableData} (hr : r.rest = p.bits ++ [false] ++ tl)
    (hslot : self.opened p = some receivedData) (h : Continues receivedData p) :
    readStreams (List.finRange MAX_STREAMS) r self =
      (.ok (r.skip (p.bits ++ [false]).length),
        self.setIncoming 0 (some (receivedData.store p))) := by
  have hr₀ : r.rest = true :: (p.headerBits ++ (BitList.ofBytes p.bytes ++ (false :: tl))) := by
    simpa [Fragment.bits] using hr
  have hr₁ : (r.skip 1).rest = p.headerBits ++ (BitList.ofBytes p.bytes ++ (false :: tl)) :=
    BitReader.rest_skip_one hr₀
  have hread := readIncomingSubchannelData_eq hr₁ hslot h
  have hr₂ : ((r.skip 1).skip (p.headerBits.length + (BitList.ofBytes p.bytes).length)).rest =
      false :: tl := by
    rw [← List.length_append]
    exact BitReader.rest_skip_of_append (by rw [List.append_assoc]; exact hr₁)
  rw [finRange_MAX_STREAMS, readStreams_cons hr₀, if_pos rfl, Method.bind_ok hread,
    readStreams_cons hr₂, if_neg (by simp), readStreams, Method.pure_apply]
  simp only [BitReader.skip_skip, Fragment.bits, List.length_append, List.length_cons,
    List.length_nil]
  congr 3
  omega

/-- Fragments of a transfer that was not opened are refused. -/
theorem readStreams_of_none {self : NetChannel} {p : Fragment} {r : BitReader} {tl : List Bool}
    (hr : r.rest = p.bits ++ [false] ++ tl) (hslot : self.opened p = none) :
    readStreams (List.finRange MAX_STREAMS) r self = (.err .noActiveSubchannelData, self) := by
  have hr₀ : r.rest = true :: (p.headerBits ++ (BitList.ofBytes p.bytes ++ (false :: tl))) := by
    simpa [Fragment.bits] using hr
  have hr₁ : (r.skip 1).rest = p.headerBits ++ (BitList.ofBytes p.bytes ++ (false :: tl)) :=
    BitReader.rest_skip_one hr₀
  have hread := readIncomingSubchannelData_of_none hr₁ hslot
  rw [finRange_MAX_STREAMS, readStreams_cons hr₀, if_pos rfl, Method.bind_err hread]

/-! ## Complete transfers -/

theorem readReliableMessages_of_quiet {self : NetChannel} {i : Fin MAX_STREAMS}
    (h : Quiet (self.incomingReliableData i)) (messages : List Message) :
    readReliableMessages i messages self = (.ok messages, self) := by
  unfold readReliableMessages
  cases hslot : self.incomingReliableData i with
  | none => simp only [Method.get_bind, hslot, Method.pure_apply]
  | some receivedData =>
      obtain ⟨total, htotal, hlt⟩ := h receivedData hslot
      simp only [Method.get_bind, hslot, htotal, Method.lift_bind_ok, hlt, if_true,
        Method.pure_apply]

/-- A transfer whose last fragment came is decoded, and its slot is free again. -/
theorem readReliableMessages_of_complete {self : NetChannel} {i : Fin MAX_STREAMS}
    {receivedData : IncomingReliableData} (hslot : self.incomingReliableData i = some receivedData)
    (htotal : receivedData.totalFragments = .ok receivedData.ackedFragments)
    (hfile : receivedData.filename = none) (messages : List Message) :
    readReliableMessages i messages self =
      match readMessages { data := receivedData.data, pos := 0 } receivedData.data.length
      messages with
      | .ok messages => (.ok messages, self.setIncoming i none)
      | .err e => (.err e, self)
      | .panic => (.panic, self) := by
  unfold readReliableMessages
  simp only [Method.get_bind, hslot, htotal, Method.lift_bind_ok, Nat.lt_irrefl, if_false,
    gt_iff_lt,
    hfile, Option.isNone_none, if_true]
  cases readMessages { data := receivedData.data, pos := 0 } receivedData.data.length
    messages <;> rfl

theorem readAllReliableMessages_cons {self : NetChannel} {i : Fin MAX_STREAMS}
    {streams : List (Fin MAX_STREAMS)} {messages : List Message} :
    readAllReliableMessages (i :: streams) messages self =
      (readReliableMessages i messages >>=
        fun messages => readAllReliableMessages streams messages :
        Method NetChannel Error _) self := rfl

/-- With a quiet file stream only stream 0 has messages to hand over. -/
theorem readAllReliableMessages_of_quiet {self self' : NetChannel} {messages : List Message}
    (hzero : readReliableMessages 0 [] self = (.ok messages, self'))
    (hone : Quiet (self'.incomingReliableData 1)) :
    readAllReliableMessages (List.finRange MAX_STREAMS) [] self = (.ok messages, self') := by
  rw [finRange_MAX_STREAMS, readAllReliableMessages_cons, Method.bind_ok hzero,
    readAllReliableMessages_cons, Method.bind_ok (readReliableMessages_of_quiet hone messages)]
  rfl

/-! ## Sections -/

/-- A section of the transfer in progress is taken, its subchannel's bit is
toggled, and then the complete transfers are decoded. -/
theorem readReliableSection_eq {self : NetChannel} {s : Section} {r : BitReader} {tl : List Bool}
    {receivedData : IncomingReliableData} (hr : r.rest = s.bits ++ tl)
    (hslot : self.opened s.fragment = some receivedData) (h : Continues receivedData s.fragment) :
    readReliableSection r self =
      (do let messages ← readAllReliableMessages (List.finRange MAX_STREAMS) []
          pure (messages, r.skip s.bits.length) : Method NetChannel Error _)
        (self.taken s receivedData) := by
  have hr' : r.rest = BitList.ofNat 3 s.subchannel ++ (s.fragment.bits ++ [false] ++ tl) := by
    simpa [Section.bits] using hr
  have hindex : (s.subchannel : Nat) < 2 ^ 3 := s.subchannel.isLt
  have hbit := Reads.readIn (ε := Error) hindex r _ hr'
  have hread := readStreams_eq (BitReader.rest_skip_of_append hr') hslot h
  unfold readReliableSection
  simp only [hbit, Method.lift_bind_ok]
  rw [Method.bind_ok hread, Method.modify_bind, BitReader.skip_skip]
  simp only [taken, Section.bits, List.length_append, List.append_assoc]
  rfl

/-- A section of a transfer that was not opened is refused. -/
theorem readReliableSection_of_none {self : NetChannel} {s : Section} {r : BitReader}
    {tl : List Bool}
    (hr : r.rest = s.bits ++ tl) (hslot : self.opened s.fragment = none) :
    readReliableSection r self = (.err .noActiveSubchannelData, self) := by
  have hr' : r.rest = BitList.ofNat 3 s.subchannel ++ (s.fragment.bits ++ [false] ++ tl) := by
    simpa [Section.bits] using hr
  have hindex : (s.subchannel : Nat) < 2 ^ 3 := s.subchannel.isLt
  have hbit := Reads.readIn (ε := Error) hindex r _ hr'
  have hread := readStreams_of_none (BitReader.rest_skip_of_append hr') hslot
  unfold readReliableSection
  simp only [hbit, Method.lift_bind_ok]
  rw [Method.bind_err hread]

end NetChannel

end QuickplayServer
