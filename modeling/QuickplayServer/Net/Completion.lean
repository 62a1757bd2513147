import QuickplayServer.Net.Abandoned

/-!
# QuickplayServer.Net.Completion

What `read_reliable_messages` finds in the slots, and what it leaves there.

The sections of a packet settle the slots first (`slotLeft`).  Behind the last
section the streams are taken one after the other; a packet comes to decode the
transfer of a stream (`Decoding`) when the streams in front of it return and all
of its fragments are counted.  A slot is emptied exactly when its transfer is
decoded (`readPacket_slot`).
-/

namespace QuickplayServer

namespace NetChannel

section

variable [BitstreamIo]

/-! ## The slots behind the sections -/

/-- The slot of a stream behind the sections. -/
def leftBy (self : NetChannel) (sections : List Arrival) (i : Fin MAX_STREAMS) :
    Option IncomingReliableData :=
  match sections.find? fun arrival => arrival.stream = i with
  | some arrival => arrival.left
  | none => self.incomingReliableData i

/-- Behind the sections each slot has what they have left in it. -/
theorem Arrived.slot {channel later : NetChannel} {sections : List Arrival}
    (h : Arrived channel sections later) (i : Fin MAX_STREAMS) :
    later.incomingReliableData i = channel.leftBy sections i := by
  unfold leftBy
  cases hfind : sections.find? fun arrival => arrival.stream = i with
  | none =>
      refine h.other i fun arrival hmem => ?_
      simpa using List.find?_eq_none.mp hfind arrival hmem
  | some arrival =>
      obtain rfl : arrival.stream = i := by simpa using List.find?_some hfind
      exact h.left arrival (List.mem_of_find?_eq_some hfind)

/-- The sections are those of some of the streams, in their order. -/
theorem arrivals_sublist (self : NetChannel) (streams : List (Fin MAX_STREAMS))
    (reader : BitReader) :
    ((self.arrivals streams reader).1.map Arrival.stream).Sublist streams := by
  induction streams generalizing reader with
  | nil => exact List.Sublist.refl _
  | cons i streams ih =>
      rw [arrivals]
      split
      · exact (ih _).cons i
      · split
        · dsimp only
          split
          · exact (ih _).cons_cons i
          · exact (List.nil_sublist streams).cons_cons i
        · exact List.nil_sublist _
      · exact List.nil_sublist _

/-- Of the sections of different streams each one is found. -/
theorem leftBy_of_mem {self : NetChannel} {sections : List Arrival}
    (hstreams : (sections.map Arrival.stream).Nodup) {arrival : Arrival}
    (hmem : arrival ∈ sections) :
    self.leftBy sections arrival.stream = arrival.left := by
  have hfind : (sections.find? fun other => other.stream = arrival.stream) = some arrival := by
    induction sections with
    | nil => cases hmem
    | cons first sections ih =>
        obtain ⟨hfirst, hrest⟩ := List.nodup_cons.mp hstreams
        obtain rfl | hmem := List.mem_cons.mp hmem
        · rw [List.find?_cons_of_pos (by simp)]
        · have hne : first.stream ≠ arrival.stream :=
            fun heq => hfirst (heq ▸ List.mem_map_of_mem hmem)
          rw [List.find?_cons_of_neg (by simpa using hne), ih hrest hmem]
  rw [leftBy, hfind]

/-- A slot without a section keeps its transfer. -/
theorem leftBy_of_notMem {self : NetChannel} {sections : List Arrival} {i : Fin MAX_STREAMS}
    (h : ∀ arrival ∈ sections, arrival.stream ≠ i) :
    self.leftBy sections i = self.incomingReliableData i := by
  have hfind : (sections.find? fun arrival => arrival.stream = i) = none :=
    List.find?_eq_none.mpr fun arrival hmem => by simpa using h arrival hmem
  rw [leftBy, hfind]

variable [Crc]

/-- The slot of a stream behind the sections of the packet. -/
def slotLeft (self : NetChannel) (packet : List UInt8) (i : Fin MAX_STREAMS) :
    Option IncomingReliableData :=
  self.leftBy (self.sectionsOf packet).1 i

/-- A packet has no sections, or those that are read behind some header. -/
theorem sectionsOf_cases (self : NetChannel) (packet : List UInt8) :
    (self.sectionsOf packet).1 = [] ∨ ∃ reader,
      (self.sectionsOf packet).1 = (self.arrivals (List.finRange MAX_STREAMS) reader).1 := by
  unfold sectionsOf
  split
  · split
    · unfold sections
      split
      · exact .inr ⟨_, rfl⟩
      · exact .inl rfl
    · exact .inl rfl
  · exact .inl rfl

/-- A packet has at most one section for each stream. -/
theorem sectionsOf_nodup (self : NetChannel) (packet : List UInt8) :
    ((self.sectionsOf packet).1.map Arrival.stream).Nodup := by
  obtain h | ⟨reader, h⟩ := self.sectionsOf_cases packet <;> rw [h]
  · exact List.nodup_nil
  · exact (arrivals_sublist self _ reader).nodup (List.nodup_finRange MAX_STREAMS)

/-- The slot that a section finds is that of its stream before the packet, since no
other section of the packet is for this stream. -/
theorem mem_sectionsOf {self : NetChannel} {packet : List UInt8} {arrival : Arrival}
    (hmem : arrival ∈ (self.sectionsOf packet).1) :
    arrival.slot = self.incomingReliableData arrival.stream := by
  obtain h | ⟨reader, h⟩ := self.sectionsOf_cases packet <;> rw [h] at hmem
  · cases hmem
  · exact (mem_arrivals hmem).2

/-- The slot of a section has what the section leaves. -/
theorem slotLeft_of_mem {self : NetChannel} {packet : List UInt8} {arrival : Arrival}
    (hmem : arrival ∈ (self.sectionsOf packet).1) :
    self.slotLeft packet arrival.stream = arrival.left :=
  leftBy_of_mem (self.sectionsOf_nodup packet) hmem

/-- What holds of the slots holds behind the sections if it holds of what they leave. -/
theorem forall_slotLeft {self : NetChannel} {packet : List UInt8}
    {P : Fin MAX_STREAMS → Option IncomingReliableData → Prop}
    (hP : ∀ i, P i (self.incomingReliableData i)) :
    (∀ i, P i (self.slotLeft packet i)) ↔
      ∀ arrival ∈ (self.sectionsOf packet).1, P arrival.stream arrival.left := by
  constructor
  · exact fun h arrival hmem => slotLeft_of_mem hmem ▸ h arrival.stream
  · intro h i
    by_cases hi : ∃ arrival ∈ (self.sectionsOf packet).1, arrival.stream = i
    · obtain ⟨arrival, hmem, rfl⟩ := hi
      exact slotLeft_of_mem hmem ▸ h arrival hmem
    · rw [slotLeft, leftBy_of_notMem fun arrival hmem heq => hi ⟨arrival, hmem, heq⟩]
      exact hP i

end

/-! ## Coming to a stream -/

section

variable [BitstreamIo]

/-- The part of a reliable section in front of `read_reliable_messages` for the
stream: all of its sections, and the streams before. -/
def readBefore (i : Fin MAX_STREAMS) (reader : BitReader) :
    Method NetChannel Error (List Message × BitReader) := do
  let (subchannelBit, reader) ← (reader.readIn 3 : Result _)
  let reader ← readStreams (List.finRange MAX_STREAMS) reader
  modify fun self =>
    { self with inReliableState := self.inReliableState ^^^ (1#8 <<< subchannelBit) }
  let messages ← readAllReliableMessages ((List.finRange MAX_STREAMS).take i) []
  pure (messages, reader)

omit [BitstreamIo] in
/-- The streams are those before a given one, this one, and those behind it. -/
theorem finRange_split (i : Fin MAX_STREAMS) : List.finRange MAX_STREAMS =
    (List.finRange MAX_STREAMS).take i ++ i :: (List.finRange MAX_STREAMS).drop (i + 1) := by
  have hi : i.val < (List.finRange MAX_STREAMS).length := by
    rw [List.length_finRange]
    exact i.isLt
  conv_lhs => rw [← List.take_append_drop i (List.finRange MAX_STREAMS)]
  rw [List.drop_eq_getElem_cons hi, List.getElem_finRange]
  rfl

omit [BitstreamIo] in
/-- The streams in front of a given one are the lower ones. -/
theorem mem_take_finRange {i j : Fin MAX_STREAMS} :
    j ∈ (List.finRange MAX_STREAMS).take i ↔ j < i := by
  rw [List.mem_take_iff_getElem]
  simp only [List.length_finRange, List.getElem_finRange, Fin.cast_mk]
  constructor
  · rintro ⟨k, hk, rfl⟩
    exact (lt_min_iff.mp hk).1
  · exact fun h => ⟨j, lt_min h j.isLt, rfl⟩

omit [BitstreamIo] in
/-- No stream is behind itself. -/
theorem notMem_drop_finRange (i : Fin MAX_STREAMS) :
    i ∉ (List.finRange MAX_STREAMS).drop (i + 1) := by
  have hnodup := List.nodup_finRange MAX_STREAMS
  rw [finRange_split i] at hnodup
  exact (List.nodup_cons.mp (List.nodup_append.mp hnodup).2.1).1

/-- The streams are handed over in order, with one list of messages that is passed
on. -/
theorem readAllReliableMessages_append (streams streams' : List (Fin MAX_STREAMS))
    (messages : List Message) :
    readAllReliableMessages (streams ++ streams') messages = (do
      let messages ← readAllReliableMessages streams messages
      readAllReliableMessages streams' messages) := by
  induction streams generalizing messages with
  | nil => rfl
  | cons i streams ih =>
      simp only [List.cons_append, readAllReliableMessages, ih, Method.bind_assoc]

/-- A reliable section comes to every stream, unless it fails before. -/
theorem readReliableSection_split (i : Fin MAX_STREAMS) (reader : BitReader) :
    readReliableSection reader = (do
      let (messages, reader) ← readBefore i reader
      let messages ← readReliableMessages i messages
      let messages ← readAllReliableMessages ((List.finRange MAX_STREAMS).drop (i + 1)) messages
      pure (messages, reader)) := by
  have hstreams : ∀ messages, readAllReliableMessages (List.finRange MAX_STREAMS) messages = (do
      let messages ← readAllReliableMessages ((List.finRange MAX_STREAMS).take i) messages
      let messages ← readReliableMessages i messages
      readAllReliableMessages ((List.finRange MAX_STREAMS).drop (i + 1)) messages) := by
    intro messages
    conv_lhs => rw [finRange_split i]
    rw [readAllReliableMessages_append]
    rfl
  simp only [readReliableSection, readBefore, hstreams, Method.bind_assoc]
  rfl

/-- The streams return their messages exactly when each of them waits or can be decoded. -/
theorem readAllReliableMessages_returns_iff {streams : List (Fin MAX_STREAMS)}
    (hstreams : streams.Nodup) {self : NetChannel} (hs : self.Sound) (messages : List Message) :
    (∃ all, (readAllReliableMessages streams messages self).1 = .ok all) ↔
      ∀ i ∈ streams, Incomplete (self.incomingReliableData i) ∨
      Decodes (self.incomingReliableData i) := by
  induction streams generalizing self messages with
  | nil => exact iff_of_true ⟨messages, rfl⟩ nofun
  | cons i streams ih =>
      obtain ⟨hi, hstreams⟩ := List.nodup_cons.mp hstreams
      rw [readAllReliableMessages_cons, List.forall_mem_cons]
      obtain ⟨hslot, hread⟩ | ⟨hslot, ⟨hdecodes, all, hread⟩ | ⟨hdecodes, e, hread⟩⟩ :=
        readReliableMessages_cases hs i messages
      · rw [Method.bind_ok hread, ih hstreams hs messages]
        exact (and_iff_right (.inl hslot)).symm
      · rw [Method.bind_ok hread, ih hstreams (hs.clear i) all, and_iff_right (.inr hdecodes)]
        refine forall₂_congr fun j hj => ?_
        rw [setIncoming_incomingReliableData, Function.update_of_ne (by rintro rfl; exact hi hj)]
      · rw [Method.bind_err hread]
        exact iff_of_false (fun ⟨all, h⟩ => by cases h) fun h => h.1.elim hslot hdecodes

/-- In front of the stream its slot is as the sections leave it.  The stream is
reached when all sections are taken and no stream before it fails. -/
theorem readBefore_spec {self : NetChannel} (hs : self.Sound) (i : Fin MAX_STREAMS)
    (reader : BitReader)
    (hpanic : (readBefore i reader self).1 ≠ .panic) :
    let left := self.leftBy (self.sections reader).1
    (readBefore i reader self).2.Sound ∧
    (readBefore i reader self).2.incomingReliableData i = left i ∧
      ((∃ x, (readBefore i reader self).1 = .ok x) ↔
        (self.sections reader).2 ≠ none ∧ ∀ j < i, Incomplete (left j) ∨ Decodes (left j)) := by
  revert hpanic
  unfold readBefore sections
  cases hbit : (reader.readIn 3 : Result _) with
  | err e =>
      exact fun _ => ⟨hs, rfl, iff_of_false (fun ⟨x, h⟩ => by cases h) fun h => absurd rfl h.1⟩
  | panic => exact fun h => absurd rfl h
  | ok x =>
      obtain ⟨subchannelBit, reader⟩ := x
      dsimp only
      rw [Method.lift_bind_ok, Method.bind_apply]
      have hsettles := readStreams_settles (List.nodup_finRange MAX_STREAMS) reader self
      have hslots : ∀ arrival ∈ (self.arrivals (List.finRange MAX_STREAMS) reader).1,
          arrival.slot = self.incomingReliableData arrival.stream :=
        fun _ hmem => (mem_arrivals hmem).2
      revert hsettles hslots
      generalize readStreams (List.finRange MAX_STREAMS) reader self = read
      obtain ⟨sections, last⟩ := self.arrivals (List.finRange MAX_STREAMS) reader
      intro hsettles hslots
      cases hsettles with
      | overflow h => exact fun h => absurd rfl h
      | refused hno h =>
          refine fun _ => ⟨h.sound hs hslots hno, h.slot i, ?_⟩
          exact iff_of_false (fun ⟨x, h⟩ => by cases h) fun h => absurd rfl h.1
      | @taken behind later hno h =>
          intro hpanic
          have hlater : Sound { later with
            inReliableState := later.inReliableState ^^^ (1#8 <<< subchannelBit) } :=
            h.sound hs hslots hno
          have hnodup : ((List.finRange MAX_STREAMS).take i).Nodup :=
            (List.take_sublist _ _).nodup (List.nodup_finRange MAX_STREAMS)
          obtain ⟨-, -, hsound, hother, -⟩ := readAllReliableMessages_spec hnodup hlater []
          have hslot := (hother i fun h => (mem_take_finRange.mp h).false).trans (h.slot i)
          have hreturns := readAllReliableMessages_returns_iff hnodup hlater []
          simp only [mem_take_finRange, h.slot] at hreturns
          simp only [Method.bind_apply, Method.modify_apply]
          revert hsound hslot hreturns
          generalize readAllReliableMessages ((List.finRange MAX_STREAMS).take i) [] _ = read
          obtain ⟨o, settled⟩ := read
          intro hsound hslot hreturns
          have hiff : (∃ x, (o >>= fun messages => pure (messages, behind)) = .ok x) ↔
            ∃ all, o = .ok all := by
            cases o <;> simp
          cases o <;> exact ⟨hsound, hslot, hiff.trans (hreturns.trans (and_iff_right nofun).symm)⟩

/-- A transfer that waits for fragments is not decoded. -/
theorem Incomplete.not_decodes {slot : Option IncomingReliableData} (h : Incomplete slot) :
    ¬ Decodes slot := by
  rintro ⟨receivedData, messages, hslot, hacked, -⟩
  exact absurd hacked (h receivedData hslot).ne

/-- A reliable section that reaches a transfer it can decode empties its slot,
and leaves it as the sections do otherwise. -/
theorem readReliableSection_slot {self : NetChannel} (hs : self.Sound) (i : Fin MAX_STREAMS)
    (reader : BitReader) (hpanic : (readReliableSection reader self).1 ≠ .panic) :
    (∃ x later, readBefore i reader self = (.ok x, later) ∧
      Decodes (later.incomingReliableData i)) ∧
        (readReliableSection reader self).2.incomingReliableData i = none ∨
      (∀ x later, readBefore i reader self = (.ok x, later) →
        ¬ Decodes (later.incomingReliableData i)) ∧
        (readReliableSection reader self).2.incomingReliableData i =
          self.leftBy (self.sections reader).1 i := by
  revert hpanic
  rw [readReliableSection_split i]
  have hspec := readBefore_spec hs i reader
  cases hbefore : readBefore i reader self with
  | mk o later =>
      rw [hbefore] at hspec
      cases o with
      | err e =>
          rw [Method.bind_err hbefore]
          exact fun _ => .inr ⟨nofun, (hspec nofun).2.1⟩
      | panic =>
          rw [Method.bind_panic hbefore]
          exact fun h => absurd rfl h
      | ok x =>
          obtain ⟨messages, behind⟩ := x
          obtain ⟨hlater, hslot, -⟩ := hspec nofun
          have hnodup : ((List.finRange MAX_STREAMS).drop (i + 1)).Nodup :=
            (List.drop_sublist _ _).nodup (List.nodup_finRange MAX_STREAMS)
          -- the streams behind this one leave its slot alone
          have hrest : ∀ (settled : NetChannel) (messages : List Message), settled.Sound →
              ((readAllReliableMessages ((List.finRange MAX_STREAMS).drop (i + 1)) messages >>=
                fun messages => pure (messages, behind) : Method NetChannel Error _)
                  settled).2.incomingReliableData i =
                settled.incomingReliableData i := by
            intro settled messages hsettled
            obtain ⟨-, -, -, hother, -⟩ := readAllReliableMessages_spec hnodup hsettled messages
            have hother := hother i (notMem_drop_finRange i)
            rw [Method.bind_apply]
            revert hother
            generalize readAllReliableMessages _ messages settled = read
            obtain ⟨o, last⟩ := read
            cases o <;> exact id
          rw [Method.bind_ok hbefore]
          dsimp only
          intro _
          obtain ⟨hincomplete, hread⟩ | ⟨-, ⟨hdecodes, all, hread⟩ | ⟨hdecodes, e, hread⟩⟩ :=
            readReliableMessages_cases hlater i messages
          · refine .inr ⟨fun _ _ heq => ?_, ?_⟩
            · obtain ⟨-, rfl⟩ := Prod.mk.inj heq
              exact hincomplete.not_decodes
            · rw [Method.bind_ok hread, hrest later messages hlater, hslot]
          · refine .inl ⟨⟨_, _, rfl, hdecodes⟩, ?_⟩
            rw [Method.bind_ok hread, hrest _ all (hlater.clear i),
              setIncoming_incomingReliableData,
              Function.update_self]
          · refine .inr ⟨fun _ _ heq => ?_, ?_⟩
            · obtain ⟨-, rfl⟩ := Prod.mk.inj heq
              exact hdecodes
            · rw [Method.bind_err hread, hslot]

variable [Crc]

/-- The channel in which a computation returns its value. -/
def reached {α : Type} : Outcome Error α × NetChannel → Option NetChannel
  | (.ok _, later) => some later
  | _ => none

/-- The channel in which `read_packet` comes to `read_reliable_messages` for the stream. -/
def reaches (self : NetChannel) (packet : List UInt8) (i : Fin MAX_STREAMS) : Option NetChannel :=
  match readHeader { data := packet, pos := 0 } packet self with
  | (.ok (flags, reader), later) =>
      if flags.contains PACKET_FLAG_RELIABLE then reached (readBefore i reader later) else none
  | _ => none

/-- `read_reliable_messages` takes the transfer for complete and decodes it. -/
def Decoding (self : NetChannel) (packet : List UInt8) (i : Fin MAX_STREAMS)
    (receivedData : IncomingReliableData) : Prop :=
  ∃ later, self.reaches packet i = some later ∧ later.incomingReliableData i = some receivedData ∧
    receivedData.totalFragments = .ok receivedData.ackedFragments

/-- The packet comes to the stream, and its transfer is decoded. -/
def HandsOver (self : NetChannel) (packet : List UInt8) (i : Fin MAX_STREAMS) : Prop :=
  ∃ later, self.reaches packet i = some later ∧ Decodes (later.incomingReliableData i)

omit [BitstreamIo] [Crc] in
/-- A later state is reached exactly if the call in front of it returns. -/
theorem reached_eq_some {α : Type} {read : Outcome Error α × NetChannel} {later : NetChannel} :
    reached read = some later ↔ ∃ x, read = (.ok x, later) := by
  obtain ⟨o, settled⟩ := read
  cases o <;> simp [reached]

omit [Crc] in
/-- What the sections leave depends on the transfers in the slots only. -/
theorem leftBy_congr {self self' : NetChannel}
    (h : self'.incomingReliableData = self.incomingReliableData) (sections : List Arrival) :
    self'.leftBy sections = self.leftBy sections := by
  funext i
  rw [leftBy, leftBy, h]

/-- A packet has no sections, or its reliable section is read from the channel
that its header leaves. -/
theorem readPacket_sections (self : NetChannel) (packet : List UInt8) :
    (self.sectionsOf packet).1 = [] ∧ (∀ i, self.reaches packet i = none) ∧
        ((readPacket packet self).1 ≠ .panic →
          (readPacket packet self).2.incomingReliableData = self.incomingReliableData) ∨
      ∃ reader later, SameReceived self later ∧ self.sectionsOf packet = later.sections reader ∧
        (∀ i, self.reaches packet i = reached (readBefore i reader later)) ∧
        (readPacket packet self).2 = (readReliableSection reader later).2 ∧
        ((readPacket packet self).1 ≠ .panic → (readReliableSection reader later).1 ≠ .panic) := by
  have hsame := (readHeader_sameReceived self { data := packet, pos := 0 } packet).run ⟨rfl, rfl⟩
  rw [readPacket_eq_bind]
  unfold sectionsOf reaches
  cases hheader : readHeader { data := packet, pos := 0 } packet self with
  | mk o later =>
      rw [hheader] at hsame
      cases o with
      | err e =>
          rw [Method.bind_err hheader]
          exact .inl ⟨rfl, fun _ => rfl, fun _ => (hsame (by simp)).1⟩
      | panic =>
          rw [Method.bind_panic hheader]
          exact .inl ⟨rfl, fun _ => rfl, fun h => absurd rfl h⟩
      | ok x =>
          obtain ⟨flags, reader⟩ := x
          have hsame := hsame (by simp)
          rw [Method.bind_ok hheader, readBody]
          dsimp only
          by_cases hreliable : flags.contains PACKET_FLAG_RELIABLE = true
          · simp only [if_pos hreliable]
            refine .inr ⟨reader, later, hsame, sections_congr hsame.1.symm reader, fun _ => rfl, ?_⟩
            rw [Method.bind_apply]
            obtain ⟨o, settled⟩ := readReliableSection reader later
            cases o with
            | ok x => exact ⟨rfl, fun _ => by simp⟩
            | err e => exact ⟨rfl, fun _ => by simp⟩
            | panic => exact ⟨rfl, fun h => absurd rfl h⟩
          · simp only [if_neg hreliable]
            exact .inl ⟨trivial, fun _ => trivial, fun _ => hsame.1⟩

/-- When a stream is reached, all sections are taken, and its slot is as they leave it. -/
theorem reaches_spec {self later : NetChannel} (hs : self.Sound) {packet : List UInt8}
    {i : Fin MAX_STREAMS} (h : self.reaches packet i = some later) :
    later.Sound ∧ later.incomingReliableData i = self.slotLeft packet i ∧
      (self.sectionsOf packet).2 ≠ none := by
  obtain ⟨-, hnone, -⟩ | ⟨reader, mid, hsame, hsections, hreaches, -, -⟩ :=
    readPacket_sections self packet
  · rw [hnone] at h
    cases h
  · rw [hreaches] at h
    obtain ⟨x, hbefore⟩ := reached_eq_some.mp h
    obtain ⟨hsound, hslot, hlast⟩ :=
      readBefore_spec (hs.congr hsame.1) i reader (by rw [hbefore]; nofun)
    rw [hbefore] at hsound hslot hlast
    rw [slotLeft, hsections, ← leftBy_congr hsame.1]
    exact ⟨hsound, hslot, (hlast.mp ⟨x, rfl⟩).1⟩

/-- Behind the packet the slot of a stream is empty if its transfer was
decoded, and as the sections leave it otherwise. -/
theorem readPacket_slot {self : NetChannel} (hs : self.Sound) (packet : List UInt8)
    (hpanic : (readPacket packet self).1 ≠ .panic) (i : Fin MAX_STREAMS) :
    self.HandsOver packet i ∧ (readPacket packet self).2.incomingReliableData i = none ∨
      ¬ self.HandsOver packet i ∧
        (readPacket packet self).2.incomingReliableData i = self.slotLeft packet i := by
  obtain ⟨hnil, hnone, hslots⟩ | ⟨reader, mid, hsame, hsections, hreaches, hread, hne⟩ :=
    readPacket_sections self packet
  · refine .inr ⟨?_, ?_⟩
    · rintro ⟨later, hlater, -⟩
      rw [hnone] at hlater
      cases hlater
    · rw [hslots hpanic, slotLeft, hnil]
      rfl
  · have hsound := hs.congr hsame.1
    rw [hread, slotLeft, hsections, ← leftBy_congr hsame.1]
    unfold HandsOver
    rw [hreaches]
    obtain ⟨⟨x, later, hbefore, hdecodes⟩, hslot⟩ | ⟨h, hslot⟩ :=
      readReliableSection_slot hsound i reader (hne hpanic)
    · exact .inl ⟨⟨later, reached_eq_some.mpr ⟨x, hbefore⟩, hdecodes⟩, hslot⟩
    · refine .inr ⟨?_, hslot⟩
      rintro ⟨later, hreached, hdecodes⟩
      obtain ⟨x, hbefore⟩ := reached_eq_some.mp hreached
      exact h x later hbefore hdecodes

/-- The transfer of a section is decoded by its packet when all sections are
taken, no stream before it fails, and it is complete and a list of messages. -/
theorem handsOver_iff {self : NetChannel} (hs : self.Sound) {packet : List UInt8}
    (hpanic : (readPacket packet self).1 ≠ .panic) {arrival : Arrival}
    (hmem : arrival ∈ (self.sectionsOf packet).1) :
    self.HandsOver packet arrival.stream ↔
      (self.sectionsOf packet).2 ≠ none ∧ Decodes arrival.left ∧
        ∀ j < arrival.stream, Incomplete (self.slotLeft packet j) ∨
        Decodes (self.slotLeft packet j) := by
  have hleft := slotLeft_of_mem hmem
  unfold slotLeft at hleft ⊢
  obtain ⟨hnil, -⟩ | ⟨reader, mid, hsame, hsections, hreaches, -, hne⟩ :=
    readPacket_sections self packet
  · rw [hnil] at hmem
    cases hmem
  · have hbefore : (readBefore arrival.stream reader mid).1 ≠ .panic := by
      intro hbefore
      refine hne hpanic ?_
      rw [readReliableSection_split arrival.stream, Method.bind_panic (Prod.ext hbefore rfl)]
    obtain ⟨-, hslot, hreturns⟩ := readBefore_spec (hs.congr hsame.1) arrival.stream reader hbefore
    rw [HandsOver, hreaches, hsections]
    rw [hsections] at hleft
    rw [← leftBy_congr hsame.1] at hleft ⊢
    rw [hleft] at hslot
    constructor
    · rintro ⟨later, hreached, hdecodes⟩
      obtain ⟨x, hx⟩ := reached_eq_some.mp hreached
      rw [hx] at hslot hreturns
      obtain ⟨hlast, hfront⟩ := hreturns.mp ⟨x, rfl⟩
      exact ⟨hlast, hslot ▸ hdecodes, hfront⟩
    · rintro ⟨hlast, hdecodes, hfront⟩
      obtain ⟨x, hx⟩ := hreturns.mpr ⟨hlast, hfront⟩
      exact ⟨_, reached_eq_some.mpr ⟨x, Prod.ext hx rfl⟩, hslot ▸ hdecodes⟩

end

end NetChannel

end QuickplayServer
