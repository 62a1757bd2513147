import QuickplayServer.Lib.Transfer
import QuickplayServer.Net.RoundTrip

/-!
# QuickplayServer.Net.Reassembly

How the receiver puts a transfer together.

`Assembles data got slot` says that the slot of stream 0 is where it should be
when the fragments `got` of the transfer `data` have come.  Fragments that
have not come yet are either refused, because nothing has come and they do not
open the transfer, or they are stored (`readPacket_assembles`), and the
fragments that complete the transfer hand its messages over.
-/

namespace QuickplayServer

/-- The fragments of the transfer. -/
def Fragment.range (p : Fragment) : Finset Nat := Finset.Ico p.start (p.start + p.num)

theorem Fragment.range_subset (p : Fragment) :
    p.range ⊆ Finset.range (fragments p.data.length) := by
  intro i hi
  have hle := p.le
  simp only [Fragment.range, Finset.mem_Ico, Finset.mem_range] at hi ⊢
  omega

theorem Fragment.card_range (p : Fragment) : p.range.card = p.num := by
  rw [Fragment.range, Nat.card_Ico, Nat.add_sub_cancel_left]

/-- `receivedData` has the fragments `got` of the transfer `data`. -/
structure Holds (data : List UInt8) (got : Finset Nat) (receivedData : IncomingReliableData) :
    Prop where
  acked : receivedData.ackedFragments = got.card
  bytes : receivedData.bytes = data.length
  filename : receivedData.filename = none
  same : SameBlocks FRAGMENT_SIZE got receivedData.data data

namespace Holds

variable {data : List UInt8} {got : Finset Nat} {receivedData : IncomingReliableData} {p : Fragment}

theorem new (data : List UInt8) : Holds data ∅ (IncomingReliableData.new none data.length) where
  acked := rfl
  bytes := rfl
  filename := rfl
  same := .empty (by simp [IncomingReliableData.new])

/-- The bytes of the fragments are copied to where they are in the transfer. -/
theorem store (h : Holds p.data got receivedData) (hnew : Disjoint got p.range) :
    Holds p.data (got ∪ p.range) (receivedData.store p) where
  acked := by
    rw [Finset.card_union_of_disjoint hnew, p.card_range, ← h.acked]
    rfl
  bytes := h.bytes
  filename := h.filename
  same := by
    have hlength := h.same.1
    have hfit : 256 * p.start + p.bytes.length ≤ receivedData.data.length := by
      rw [hlength]
      exact p.offset_add_length_le
    have hget := getElem?_setSlice hfit
    have hbytes := p.length_bytes_eq
    have hle := p.le
    have hinside := p.inside
    have hrange :
        ∀ i, i / FRAGMENT_SIZE ∈ p.range ↔ 256 * p.start ≤ i ∧ i < 256 * (p.start + p.num) := by
      intro i
      rw [Fragment.range, Finset.mem_Ico, FRAGMENT_SIZE_eq]
      omega
    rw [fragments_eq] at hbytes hle
    refine h.same.union (length_setSlice hfit) (fun i hi => ?_) fun i hi => ?_
    · obtain ⟨hlow, hhigh⟩ := (hrange i).mp hi
      show (setSlice receivedData.data (256 * p.start) p.bytes)[i]? = _
      rw [hget]
      split
      case isTrue hin =>
        rw [Fragment.bytes, List.getElem?_take_of_lt (by omega), List.getElem?_drop]
        congr 1
        omega
      case isFalse hout =>
        -- the last fragments end with the transfer
        have hend : p.data.length ≤ i := by
          split at hbytes <;> omega
        rw [List.getElem?_eq_none hend, List.getElem?_eq_none (hlength ▸ hend)]
    · have hout := mt (hrange i).mpr hi
      show (setSlice receivedData.data (256 * p.start) p.bytes)[i]? = _
      rw [hget, if_neg]
      rintro ⟨hlow, hhigh⟩
      have hshort : p.bytes.length ≤ 256 * p.num := by
        rw [p.length_bytes]
        exact Nat.min_le_left _ _
      omega

/-- A transfer of which all fragments came is the one that was sent. -/
theorem data_eq (h : Holds data (Finset.range (fragments data.length)) receivedData) :
    receivedData.data = data := by
  refine h.same.eq fun i hi => ?_
  rw [h.same.1] at hi
  rw [Finset.mem_range, FRAGMENT_SIZE_eq, fragments_eq]
  omega

theorem continues (h : Holds p.data got receivedData)
    (hgot : got ⊆ Finset.range (fragments p.data.length)) :
    NetChannel.Continues receivedData p where
  bytes := h.bytes
  length := h.same.1
  acked := by
    have hcard := Finset.card_le_card hgot
    have hle := p.le
    have hsize := p.size
    rw [Finset.card_range] at hcard
    rw [h.acked]
    rw [fragments_eq] at hcard hle
    omega

end Holds

/-- What the slot holds when the fragments `got` of the transfer `data` came:
nothing before the first and after the last. -/
def Assembles (data : List UInt8) (got : Finset Nat) : Option IncomingReliableData → Prop
  | none => got = ∅ ∨ got = Finset.range (fragments data.length)
  | some receivedData =>
      Holds data got receivedData ∧ 0 ∈ got ∧ got ≠ Finset.range (fragments data.length)

theorem Assembles.none_of_all {data : List UInt8} {slot : Option IncomingReliableData}
    (h : Assembles data (Finset.range (fragments data.length)) slot) : slot = none := by
  cases slot with
  | none => rfl
  | some receivedData => exact absurd rfl h.2.2

/-- New fragments find no transfer only before the first. -/
theorem Assembles.opened {p : Fragment} {got : Finset Nat} {slot : Option IncomingReliableData}
    (h : Assembles p.data got slot) (hnew : Disjoint got p.range) (hpos : 0 < p.num) :
    (p.opened.or slot = none ∧ got = ∅ ∧ p.start ≠ 0) ∨
      ∃ receivedData, p.opened.or slot = some receivedData ∧ Holds p.data got receivedData ∧
        0 ∈ got ∪ p.range := by
  have hstart : p.start ∈ p.range := by
    simp only [Fragment.range, Finset.mem_Ico]
    omega
  have hmissing : p.start ∉ got := fun hmem => Finset.disjoint_left.mp hnew hmem hstart
  cases slot with
  | none =>
      obtain rfl | rfl := h
      · by_cases hfirst : p.start = 0
        · refine .inr ⟨IncomingReliableData.new none p.data.length, ?_, Holds.new p.data, ?_⟩
          · simp [Fragment.opened, hfirst]
          · exact Finset.mem_union_right _ (hfirst ▸ hstart)
        · exact .inl ⟨by simp [Fragment.opened, hfirst], rfl, hfirst⟩
      · exact absurd (p.range_subset hstart) hmissing
  | some receivedData =>
      obtain ⟨hholds, hzero, -⟩ := h
      have hlater : p.start ≠ 0 := fun hfirst => hmissing (hfirst ▸ hzero)
      exact .inr
        ⟨receivedData, by simp [Fragment.opened, hlater], hholds, Finset.mem_union_left _ hzero⟩

namespace NetChannel

theorem continued_inReliableState (self : NetChannel) (s : Section)
    (receivedData : IncomingReliableData) :
    (self.continued s receivedData).inReliableState =
      self.inReliableState ^^^ (1#8 <<< s.subchannel.val) := by
  unfold continued
  split <;> rfl

theorem continued_incoming_one (self : NetChannel) (s : Section)
    (receivedData : IncomingReliableData) :
    (self.continued s receivedData).incomingReliableData 1 = self.incomingReliableData 1 := by
  unfold continued
  split <;> simp [setIncoming]

/-- The fragments that were stored complete the transfer, or are not the last. -/
theorem continued_assembles (self : NetChannel) {s : Section} {got : Finset Nat}
    {receivedData : IncomingReliableData} (h : Holds s.fragment.data got receivedData)
    (hgot : got ⊆ Finset.range (fragments s.fragment.data.length))
    (hnew : Disjoint got s.fragment.range) (hzero : 0 ∈ got ∪ s.fragment.range) :
    Assembles s.fragment.data (got ∪ s.fragment.range)
        ((self.continued s receivedData).incomingReliableData 0) ∧
      (receivedData.ackedFragments + s.fragment.num = fragments s.fragment.data.length ↔
        got ∪ s.fragment.range = Finset.range (fragments s.fragment.data.length)) := by
  have hstore := h.store hnew
  have hsubset := Finset.union_subset hgot s.fragment.range_subset
  have hcard : (got ∪ s.fragment.range).card = receivedData.ackedFragments + s.fragment.num :=
    hstore.acked.symm
  have hcomplete : receivedData.ackedFragments + s.fragment.num = fragments s.fragment.data.length ↔
      got ∪ s.fragment.range = Finset.range (fragments s.fragment.data.length) := by
    rw [← hcard]
    constructor
    · intro heq
      refine Finset.eq_of_subset_of_card_le hsubset ?_
      rw [Finset.card_range, heq]
    · intro heq
      rw [heq, Finset.card_range]
  refine ⟨?_, hcomplete⟩
  unfold continued
  split
  case isTrue heq => simpa [Assembles, setIncoming] using .inr (hcomplete.mp heq)
  case isFalse hmore =>
    rw [taken_incoming_zero]
    exact ⟨hstore, hzero, mt hcomplete.mpr hmore⟩

variable [BitstreamIo] [Crc]

/-- A packet without messages has none to read behind its section. -/
theorem readMessages_behind_bare {p : Packet} (hbare : p.messages = []) (completed : List Message) :
    readMessages (behindSection p) p.bytes.length completed = .ok completed := by
  have hshort : BitList.padding p.body.length < NETMSG_TYPE_BITS := by
    rw [padding_body_lt_iff (by rw [hbare]; exact List.forall_mem_nil _), hbare, List.length_nil]
    split <;> decide
  rw [readMessages_behind (by rw [hbare]; exact List.forall_mem_nil _), if_pos hshort, hbare,
    List.append_nil]

/-- A packet without a section. -/
theorem readPacket_of_none {self mid : NetChannel} {p : Packet}
    (hheader : readHeader { data := p.bytes, pos := 0 } p.bytes self =
      (.ok (p.flags, { data := p.bytes, pos := 128 }), mid)) (hreliable : p.reliable = none) :
    readPacket p.bytes self = (readMessages (behindSection p) p.bytes.length [], mid) := by
  have hflags := p.flags_contains_reliable
  rw [hreliable, Option.isSome_none] at hflags
  rw [readPacket, Method.bind_ok hheader]
  simp only [hflags, Bool.false_eq_true, if_false, Method.lift_apply, behindSection, hreliable,
    Option.map_none, Option.getD_none, List.length_nil, BitReader.skip_zero]

/-- A packet with new fragments of the transfer is refused because nothing has
opened it, or the fragments are stored; the messages of the transfer are handed
over with the last of them, before those of the packet. -/
theorem readPacket_assembles {self mid : NetChannel} {p : Packet} {s : Section} {got : Finset Nat}
    {messages : List Message}
    (hheader : readHeader { data := p.bytes, pos := 0 } p.bytes self =
      (.ok (p.flags, { data := p.bytes, pos := 128 }), mid))
    (hreliable : p.reliable = some s)
    (hslot : Assembles s.fragment.data got (mid.incomingReliableData 0))
    (hfile : mid.incomingReliableData 1 = none)
    (hgot : got ⊆ Finset.range (fragments s.fragment.data.length))
    (hnew : Disjoint got s.fragment.range) (hpos : 0 < s.fragment.num)
    (hdecodes : readMessages { data := s.fragment.data, pos := 0 } s.fragment.data.length [] =
      .ok messages) :
    (readPacket p.bytes self = (.err .noActiveSubchannelData, mid) ∧ got = ∅ ∧
      s.fragment.start ≠ 0) ∨
      ∃ later, readPacket p.bytes self =
          (readMessages (behindSection p) p.bytes.length
            (if got ∪ s.fragment.range = Finset.range (fragments s.fragment.data.length) then
              messages else []), later) ∧
        later.inReliableState = mid.inReliableState ^^^ (1#8 <<< s.subchannel.val) ∧
        Assembles s.fragment.data (got ∪ s.fragment.range) (later.incomingReliableData 0) ∧
        later.incomingReliableData 1 = none := by
  obtain ⟨hopened, hnone⟩ | ⟨receivedData, hopened, hholds, hzero⟩ := hslot.opened hnew hpos
  · have hread := readPacket_of_not_opened hheader hreliable hopened
    simp only [hreliable, afterSection, opened, hopened] at hread
    exact .inl ⟨hread, hnone⟩
  · have hcontinues := hholds.continues hgot
    obtain ⟨hassembles, hcomplete⟩ := continued_assembles mid hholds hgot hnew hzero
    have haccepts : Accepts mid (if got ∪ s.fragment.range =
        Finset.range (fragments s.fragment.data.length) then messages else []) p.reliable := by
      rw [hreliable]
      refine ⟨receivedData, hopened, hcontinues, hholds.filename, ?_⟩
      have hstore := hholds.store hnew
      by_cases hall : got ∪ s.fragment.range = Finset.range (fragments s.fragment.data.length)
      · rw [if_pos (hcomplete.mpr hall), if_pos hall]
        rw [hall] at hstore
        rw [hstore.data_eq]
        exact hdecodes
      · have hmore := mt hcomplete.mp hall
        have hle := Finset.card_le_card (Finset.union_subset hgot s.fragment.range_subset)
        have hcard : _ = receivedData.ackedFragments + s.fragment.num := hstore.acked.symm
        rw [hcard, Finset.card_range] at hle
        rw [if_neg hmore, if_neg hall]
        exact ⟨Nat.lt_of_le_of_ne hle hmore, rfl⟩
    have hread := readPacket_of_quiet hheader haccepts (hfile ▸ quiet_none)
    rw [hreliable] at hread
    simp only [afterSection, opened, hopened] at hread
    exact .inr ⟨_, hread, mid.continued_inReliableState s receivedData, hassembles,
      (mid.continued_incoming_one s receivedData).trans hfile⟩

end NetChannel

end QuickplayServer
