import QuickplayServer.Net.Completion

/-!
# QuickplayServer.Net.Acknowledged

What becomes of the messages of an acknowledged packet.

A packet is acknowledged when the bit of its subchannel is toggled, right
behind its sections.  After that the transfer that it completes still has to
pass the other stream and the unreliable messages of the packet: all of them
share one result (`readPacket_toggled`), and a failure of one of them loses the
messages of the others.
-/

namespace QuickplayServer

open Message (AreMessages)
open Method (Relates)

namespace NetChannel

section

variable [BitstreamIo]

/-! ## In front of the toggle -/

/-- The bits that acknowledge the packets of the peer are the same. -/
def SameReliableState (channel later : NetChannel) : Prop :=
  later.inReliableState = channel.inReliableState

instance : Std.Refl SameReliableState := ⟨fun _ => rfl⟩

instance : IsTrans NetChannel SameReliableState := ⟨fun _ _ _ h h' => h'.trans h⟩

theorem readFragment_sameReliableState (stream : Fin MAX_STREAMS)
    (startFragment numFragments offset length : Nat) (reader : BitReader) :
    Relates SameReliableState
      (readFragment stream startFragment numFragments offset length reader) := by
  refine Relates.get_bind fun self => ?_
  cases self.incomingReliableData stream with
  | none => exact refl_of _ self
  | some receivedData =>
      refine Relates.lift_bind fun _ _ => Relates.lift_bind fun _ _ => ?_
      refine Relates.lift_bind fun _ _ => ?_
      split
      · exact refl_of _ self
      · cases getSlice receivedData.data offset _ with
        | none => exact refl_of _ self
        | some slice =>
            dsimp only
            cases (reader.readBytes _ : Result _) with
            | ok x => exact Relates.lift_bind fun _ _ => rfl
            | err e => exact rfl
            | panic => exact refl_of _ self

theorem readIncomingSubchannelData_sameReliableState (reader : BitReader)
    (stream : Fin MAX_STREAMS) :
    Relates SameReliableState (readIncomingSubchannelData reader stream) := by
  refine Relates.bind (Relates.lift _) fun (header, reader) => ?_
  dsimp only
  cases header.receivedData with
  | none => exact readFragment_sameReliableState _ _ _ _ _ _
  | some receivedData =>
      exact Relates.bind (Relates.modify fun _ => rfl) fun _ =>
        readFragment_sameReliableState _ _ _ _ _ _

/-- The sections do not touch the bit, however the last of them ends. -/
theorem readStreams_sameReliableState (streams : List (Fin MAX_STREAMS)) (reader : BitReader) :
    Relates SameReliableState (readStreams streams reader) := by
  induction streams generalizing reader with
  | nil => exact Relates.pure _
  | cons i streams ih =>
      refine Relates.bind (Relates.lift _) fun (present, reader) => ?_
      dsimp only
      split
      · exact Relates.bind (readIncomingSubchannelData_sameReliableState _ _) ih
      · exact ih _

/-! ## Behind the toggle -/

/-- A reliable section that toggles the bit of its subchannel has all of its
stream sections taken, and returns what the slots hand over as they are left. -/
theorem readReliableSection_toggled {self : NetChannel} {reader : BitReader}
    (htoggles : (readReliableSection reader self).2.inReliableState ≠ self.inReliableState) :
    ∃ behind, (self.sections reader).2 = some behind ∧
      (readReliableSection reader self).1 = (do
        let first ← handover (self.leftBy (self.sections reader).1 0)
        let second ← handover (self.leftBy (self.sections reader).1 1)
        pure (first ++ second, behind)) := by
  revert htoggles
  unfold readReliableSection sections
  cases hbit : (reader.readIn 3 : Result _) with
  | err e => exact fun htoggles => absurd rfl htoggles
  | panic => exact fun htoggles => absurd rfl htoggles
  | ok x =>
      obtain ⟨subchannelBit, reader⟩ := x
      rw [Method.lift_bind_ok]
      dsimp only
      have hsettles := readStreams_settles (List.nodup_finRange MAX_STREAMS) reader self
      have hstate := readStreams_sameReliableState (List.finRange MAX_STREAMS) reader self
      cases hstreams : readStreams (List.finRange MAX_STREAMS) reader self with
      | mk o later =>
          rw [hstreams] at hsettles hstate
          generalize self.arrivals (List.finRange MAX_STREAMS) reader = arrivals at hsettles ⊢
          obtain ⟨sections, last⟩ := arrivals
          cases hsettles with
          | overflow =>
              rw [Method.bind_panic hstreams]
              exact fun htoggles => absurd hstate htoggles
          | refused =>
              rw [Method.bind_err hstreams]
              exact fun htoggles => absurd hstate htoggles
          | @taken behind _ hno harrived =>
              intro _
              refine ⟨behind, rfl, ?_⟩
              obtain ⟨last, hall, -⟩ := readAllReliableMessages_eq_handover
                { later with inReliableState := later.inReliableState ^^^ (1#8 <<< subchannelBit) }
              dsimp only at hall
              rw [harrived.slot, harrived.slot] at hall
              rw [Method.bind_ok hstreams]
              simp only [Method.bind_apply, Method.modify_apply, hall]
              cases handover (self.leftBy sections 0) with
              | err e => rfl
              | panic => rfl
              | ok first => cases handover (self.leftBy sections 1) <;> rfl

variable [Crc]

/-- A packet that toggles the bit of its subchannel returns what the slots hand
over as its sections leave them, with the messages behind the sections. -/
theorem readPacket_toggled {packet : List UInt8} {self : NetChannel}
    {accepted : PacketFlags × BitReader}
    (haccepts : (readHeader { data := packet, pos := 0 } packet self).1 = .ok accepted)
    (htoggles : (readPacket packet self).2.inReliableState ≠ self.inReliableState) :
    ∃ behind, (self.sectionsOf packet).2 = some behind ∧ behind.data = packet ∧ behind.InBounds ∧
      (readPacket packet self).1 = (do
        let first ← handover (self.slotLeft packet 0)
        let second ← handover (self.slotLeft packet 1)
        let tail ← readMessages behind packet.length []
        pure (first ++ second ++ tail)) := by
  obtain ⟨flags, reader⟩ := accepted
  have hsame := (readHeader_sameReceived self { data := packet, pos := 0 } packet).run ⟨rfl, rfl⟩
  revert htoggles
  rw [readPacket_eq_bind]
  cases hheader : readHeader { data := packet, pos := 0 } packet self with
  | mk o mid =>
      rw [hheader] at haccepts hsame
      obtain rfl := haccepts
      have hsame := hsame nofun
      rw [Method.bind_ok hheader, readBody]
      dsimp only
      by_cases hreliable : flags.contains PACKET_FLAG_RELIABLE = true
      · have hsections : self.sectionsOf packet = mid.sections reader := by
          rw [sectionsOf, hheader]
          exact (if_pos hreliable).trans (sections_congr hsame.1.symm reader)
        have hslots : ∀ i, self.slotLeft packet i = mid.leftBy (mid.sections reader).1 i := by
          intro i
          rw [slotLeft, hsections, leftBy_congr hsame.1]
        rw [if_pos hreliable, Method.bind_state fun _ _ => rfl, ← hsame.2]
        intro htoggles
        obtain ⟨behind, hbehind, hread⟩ := readReliableSection_toggled htoggles
        obtain ⟨header, hfields, -⟩ := readHeader_eq_ok hheader
        have hbefore := (Header.read_advances _ packet header reader hfields).trans
          (sections_advances hbehind)
        refine ⟨behind, hsections ▸ hbehind, hbefore.data,
          hbefore.inBounds (BitReader.inBounds_start packet), ?_⟩
        rw [hslots, hslots, Method.bind_apply]
        revert hread
        obtain ⟨o, later⟩ := readReliableSection reader mid
        rintro rfl
        cases handover (mid.leftBy (mid.sections reader).1 0) with
        | err e => rfl
        | panic => rfl
        | ok first =>
            cases handover (mid.leftBy (mid.sections reader).1 1) with
            | err e => rfl
            | panic => rfl
            | ok second => exact readMessages_acc behind packet.length (first ++ second)
      · rw [if_neg hreliable]
        exact fun htoggles => absurd hsame.2 htoggles

/-! ## Complete transfers -/

omit [Crc] in
/-- The slot holds a transfer with all of its fragments that decodes to `ms`. -/
def Completes (slot : Option IncomingReliableData) (ms : List Message) : Prop :=
  ∃ receivedData, slot = some receivedData ∧
    receivedData.totalFragments = .ok receivedData.ackedFragments ∧ receivedData.filename = none ∧
    readMessages { data := receivedData.data, pos := 0 } receivedData.data.length [] = .ok ms

omit [Crc] in
theorem handover_of_completes {slot : Option IncomingReliableData} {ms : List Message}
    (h : Completes slot ms) : handover slot = .ok ms := by
  obtain ⟨receivedData, rfl, htotal, hname, hread⟩ := h
  simp [handover, htotal, hname, hread]

/-- A transfer that an acknowledged packet completes is handed to the caller
exactly when the other stream does not fail and the bits behind the reliable
section are messages. -/
theorem readPacket_hands_over_iff {packet : List UInt8} {self : NetChannel}
    {accepted : PacketFlags × BitReader} {i : Fin MAX_STREAMS} {ms : List Message}
    (haccepts : (readHeader { data := packet, pos := 0 } packet self).1 = .ok accepted)
    (htoggles : (readPacket packet self).2.inReliableState ≠ self.inReliableState)
    (hcompletes : Completes (self.slotLeft packet i) ms) :
    (∃ messages, (readPacket packet self).1 = .ok messages ∧ ms <:+: messages) ↔
      (∀ j, j ≠ i → ∃ others, Yields (self.slotLeft packet j) others) ∧
        ∀ behind, (self.sectionsOf packet).2 = some behind →
          ∃ tail, AreMessages behind.rest tail := by
  obtain ⟨behind, hbehind, hdata, hb, hread⟩ := readPacket_toggled haccepts htoggles
  have hi := handover_of_completes hcompletes
  have htail : ∀ tail, readMessages behind packet.length [] = .ok tail ↔
      AreMessages behind.rest tail := by
    intro tail
    rw [← hdata]
    exact readMessages_eq_ok_iff hb
  rw [hread, hbehind]
  constructor
  · rintro ⟨messages, hread, -⟩
    obtain ⟨first, hfirst, hread⟩ := Outcome.bind_eq_ok.mp hread
    obtain ⟨second, hsecond, hread⟩ := Outcome.bind_eq_ok.mp hread
    obtain ⟨tail, hmessages, -⟩ := Outcome.bind_eq_ok.mp hread
    refine ⟨fun j _ => ?_, ?_⟩
    · match j with
      | 0 => exact ⟨first, handover_eq_ok_iff.mp hfirst⟩
      | 1 => exact ⟨second, handover_eq_ok_iff.mp hsecond⟩
    · rintro _ ⟨⟩
      exact ⟨tail, (htail tail).mp hmessages⟩
  · rintro ⟨hothers, hmessages⟩
    obtain ⟨tail, hmessages⟩ := hmessages behind rfl
    have hmessages := (htail tail).mpr hmessages
    match i with
    | 0 =>
        obtain ⟨second, hsecond⟩ := hothers 1 (by decide)
        have hsecond := handover_eq_ok_iff.mpr hsecond
        exact ⟨ms ++ second ++ tail, by simp [hi, hsecond, hmessages], [], second ++ tail, by simp⟩
    | 1 =>
        obtain ⟨first, hfirst⟩ := hothers 0 (by decide)
        have hfirst := handover_eq_ok_iff.mpr hfirst
        exact ⟨first ++ ms ++ tail, by simp [hi, hfirst, hmessages], first, tail, by simp⟩

end

theorem readPacket_hands_over_printPacket :
    (∃ messages, (readPacket printPacket fresh).1 = .ok messages ∧ [.print ⟨"x"⟩] <:+: messages) ↔
      (∀ j, j ≠ 0 → ∃ others, Yields (fresh.slotLeft printPacket j) others) ∧
        ∀ behind, (fresh.sectionsOf printPacket).2 = some behind →
          ∃ tail, AreMessages behind.rest tail := by
  have haccepts : (readHeader { data := printPacket, pos := 0 } printPacket fresh).1 =
      .ok (PACKET_FLAG_CHALLENGE ||| PACKET_FLAG_RELIABLE,
        { data := printPacket, pos := 128 }) := by
    decide +kernel
  have hcompletes : Completes (fresh.slotLeft printPacket 0) [.print ⟨"x"⟩] :=
    ⟨⟨1, 3, [7, 30, 0], none⟩, by decide +kernel, by decide +kernel, rfl, by decide +kernel⟩
  exact readPacket_hands_over_iff haccepts (by decide +kernel) hcompletes

/-- A packet with the transfer `[Print "x"]` and the message `StringCmd "y"`
behind it, which `Message::read` does not handle. -/
def stringCmdPacket : List UInt8 :=
  [1, 0, 0, 0, 0, 0, 0, 0, 33, 163, 78, 0, 5, 0, 0, 0, 200, 192, 129, 7, 0, 34, 15, 0]

/-- The transfer is complete and acknowledged, and is lost with the error of
the message behind it. -/
theorem readPacket_loses_stringCmdPacket :
    (readHeader { data := stringCmdPacket, pos := 0 } stringCmdPacket fresh).1 =
        .ok (PACKET_FLAG_CHALLENGE ||| PACKET_FLAG_RELIABLE,
          { data := stringCmdPacket, pos := 128 }) ∧
      Completes (fresh.slotLeft stringCmdPacket 0) [.print ⟨"x"⟩] ∧
      (readPacket stringCmdPacket fresh).1 = .err (.unhandledMessageType 4) ∧
      (readPacket stringCmdPacket fresh).2.inReliableState ≠ fresh.inReliableState ∧
      (readPacket stringCmdPacket fresh).2.incomingReliableData 0 = none :=
  ⟨by decide +kernel,
    ⟨⟨1, 3, [7, 30, 0], none⟩, by decide +kernel, by decide +kernel, rfl, by decide +kernel⟩,
    by decide +kernel, by decide +kernel, by decide +kernel⟩

end NetChannel

end QuickplayServer
