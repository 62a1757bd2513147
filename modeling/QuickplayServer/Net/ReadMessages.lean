import QuickplayServer.Net.NetChannel

/-!
# QuickplayServer.Net.ReadMessages

What `read_messages` makes of a list of messages and the zero bits that pad
it to a byte boundary.

The padding is at most 7 bits.  Fewer than 6 bits are too short for a message
type and end the loop; 6 or 7 zero bits read as a message of type 0, which
`Message::read` does not handle (`readMessages_padded`).  A message leaves 6
bits over a whole byte, so the padding of a queued list depends on its length
modulo 4.
-/

namespace QuickplayServer

open Message

namespace NetChannel

section

variable [BitstreamIo]

/-! ## The loop -/

/-- Fewer bits than a message type end the loop. -/
theorem readMessagesLoop_done {dataLen fuel : Nat} {r : BitReader} {acc : List Message}
    (hb : r.pos + r.rest.length = dataLen * 8) (hshort : r.rest.length < NETMSG_TYPE_BITS) :
    readMessagesLoop dataLen (fuel + 1) r acc = .ok acc := by
  have hleft : dataLen * 8 - r.pos = r.rest.length := by omega
  simp only [readMessagesLoop, BitReader.positionInBits_eq,
    Outcome.checkedSub_of_le (show r.pos ≤ dataLen * 8 by omega), Outcome.ok_bind, hleft, hshort,
    if_true, Outcome.pure_eq]

/-- One round of the loop. -/
theorem readMessagesLoop_succ {dataLen fuel : Nat} {r : BitReader} {acc : List Message}
    (hb : r.pos + r.rest.length = dataLen * 8) (hlong : NETMSG_TYPE_BITS ≤ r.rest.length) :
    readMessagesLoop dataLen (fuel + 1) r acc = (do
      let (message, reader) ← readNext r
      readMessagesLoop dataLen fuel reader (acc ++ [message])) := by
  have hleft : dataLen * 8 - r.pos = r.rest.length := by omega
  simp only [readMessagesLoop, BitReader.positionInBits_eq,
    Outcome.checkedSub_of_le (show r.pos ≤ dataLen * 8 by omega), Outcome.ok_bind, hleft,
    Nat.not_lt.mpr hlong, if_false, readNext]
  cases (r.readIn NETMSG_TYPE_BITS : Result _) <;> rfl

/-- The loop reads textual messages one by one. -/
theorem readMessagesLoop_textual {dataLen fuel : Nat} {r : BitReader} {acc ms : List Message}
    {tl : List Bool} (hms : ∀ m ∈ ms, m.Textual) (hr : r.rest = bitsAll ms ++ tl)
    (hb : r.pos + r.rest.length = dataLen * 8) :
    readMessagesLoop dataLen (fuel + ms.length) r acc =
      readMessagesLoop dataLen fuel (r.skip (bitsAll ms).length) (acc ++ ms) := by
  induction ms generalizing r acc with
  | nil => simp
  | cons m ms ih =>
      have hm := hms m List.mem_cons_self
      have hlen := length_bits_mod hm.writable
      rw [bitsAll_cons, List.append_assoc] at hr
      have hlong : NETMSG_TYPE_BITS ≤ r.rest.length := by
        rw [hr, List.length_append]; unfold NETMSG_TYPE_BITS; omega
      have hskip := BitReader.rest_skip_of_append hr
      have hb' : (r.skip m.bits.length).pos + (r.skip m.bits.length).rest.length = dataLen * 8 := by
        rw [hskip, BitReader.skip_pos]
        rw [hr, List.length_append] at hb
        omega
      rw [List.length_cons, ← Nat.add_assoc, readMessagesLoop_succ hb hlong,
        reads_readNext hm r _ hr]
      simp only [Outcome.ok_bind, ih (fun m' hm' => hms m' (List.mem_cons_of_mem m hm')) hskip hb',
        BitReader.skip_skip, bitsAll_cons, List.length_append, List.append_assoc,
        List.singleton_append]

/-- A message type of zero bits is refused. -/
theorem readMessagesLoop_zeros {dataLen fuel pad : Nat} {r : BitReader} {acc : List Message}
    (hr : r.rest = List.replicate pad false) (hpad : NETMSG_TYPE_BITS ≤ pad)
    (hb : r.pos + r.rest.length = dataLen * 8) :
    readMessagesLoop dataLen (fuel + 1) r acc = .err (.unhandledMessageType 0) := by
  have hsplit : r.rest = BitList.ofNat NETMSG_TYPE_BITS 0 ++
      List.replicate (pad - NETMSG_TYPE_BITS) false := by
    rw [hr, BitList.ofNat_zero, List.replicate_append_replicate, Nat.add_sub_cancel' hpad]
  have hread := Reads.readIn (ε := Error) (by decide) r _ hsplit
  have hlong : NETMSG_TYPE_BITS ≤ r.rest.length := by rw [hr, List.length_replicate]; exact hpad
  simp only [readMessagesLoop_succ hb hlong, readNext, hread, Outcome.ok_bind, read_zero,
    Outcome.err_bind]

/-- Every round takes a message type, so the loop ends before its rounds do. -/
theorem readMessages_ne_panic {r : BitReader} (hb : r.InBounds) (messages : List Message) :
    readMessages r r.data.length messages ≠ .panic := by
  have hloop : ∀ (fuel : Nat) (reader : BitReader) (messages : List Message), reader.InBounds →
      reader.data = r.data → 8 * r.data.length < fuel + reader.pos →
      readMessagesLoop r.data.length fuel reader messages ≠ .panic := by
    intro fuel
    induction fuel with
    | zero =>
        intro reader messages hb hdata hfuel
        unfold BitReader.InBounds at hb
        rw [hdata] at hb
        omega
    | succ fuel ih =>
        intro reader messages hb hdata hfuel
        have hpos : reader.pos ≤ r.data.length * 8 := by
          unfold BitReader.InBounds at hb
          rw [hdata] at hb
          omega
        rw [readMessagesLoop, BitReader.positionInBits_eq, Outcome.checkedSub_of_le hpos,
          Outcome.ok_bind]
        split
        · simp
        · refine Outcome.bind_ne_panic (BitReader.readIn_ne_panic _ _)
            fun (messageType, r₁) h₁ => ?_
          refine Outcome.bind_ne_panic (Message.read_ne_panic _ _) fun (message, r₂) h₂ => ?_
          have hbefore₁ := BitReader.Advances.readIn NETMSG_TYPE_BITS messageType r₁ h₁
          have hbefore₂ := Message.read_advances r₁ messageType message r₂ h₂
          obtain ⟨-, rfl, -⟩ := BitReader.readIn_eq_ok.mp h₁
          have hsix : reader.pos + 6 ≤ r₂.pos := hbefore₂.pos
          refine ih _ _ (hbefore₂.inBounds (hbefore₁.inBounds hb)) ?_ (by omega)
          rw [hbefore₂.data, hbefore₁.data, hdata]
  exact hloop _ _ _ hb rfl (by omega)

/-! ## Padded lists -/

/-- What is read from textual messages and the zero bits after them. -/
theorem readMessages_padded {r : BitReader} {acc ms : List Message} {pad : Nat}
    (hms : ∀ m ∈ ms, m.Textual) (hr : r.rest = bitsAll ms ++ List.replicate pad false)
    (hb : r.InBounds) :
    readMessages r r.data.length acc =
      if pad < NETMSG_TYPE_BITS then .ok (acc ++ ms) else .err (.unhandledMessageType 0) := by
  have hlen := hb.pos_add_length_rest
  have hlen' : r.pos + r.rest.length = r.data.length * 8 := by omega
  have hcount : ms.length ≤ (bitsAll ms).length := by
    clear hr
    induction ms with
    | nil => simp
    | cons m ms ih =>
        have hm := length_bits_mod (hms m List.mem_cons_self).writable
        have htail := ih fun m' hm' => hms m' (List.mem_cons_of_mem m hm')
        rw [bitsAll_cons, List.length_append, List.length_cons]
        omega
  obtain ⟨fuel, hfuel⟩ : ∃ fuel, r.data.length * 8 + 1 = fuel + 1 + ms.length := by
    refine ⟨r.data.length * 8 - ms.length, ?_⟩
    rw [hr, List.length_append] at hlen'
    omega
  have hskip := BitReader.rest_skip_of_append hr
  have hb' := hb.skip hr
  have hend := hb'.pos_add_length_rest
  have hend' : (r.skip (bitsAll ms).length).pos + (r.skip (bitsAll ms).length).rest.length =
      r.data.length * 8 := by
    rw [BitReader.skip_data] at hend
    omega
  rw [readMessages, hfuel, readMessagesLoop_textual hms hr hlen']
  split
  case isTrue hpad =>
    exact readMessagesLoop_done hend' (by rwa [hskip, List.length_replicate])
  case isFalse hpad =>
    exact readMessagesLoop_zeros hskip (Nat.not_lt.mp hpad) hend'

/-- Textual messages are read back exactly when the padding is too short for
a message type. -/
theorem readMessages_padded_eq_ok_iff {r : BitReader} {acc ms : List Message} {pad : Nat}
    (hms : ∀ m ∈ ms, m.Textual) (hr : r.rest = bitsAll ms ++ List.replicate pad false)
    (hb : r.InBounds) :
    readMessages r r.data.length acc = .ok (acc ++ ms) ↔ pad < NETMSG_TYPE_BITS := by
  rw [readMessages_padded hms hr hb]
  split <;> simp_all

/-- No messages and short padding read as no messages. -/
theorem readMessages_of_short {r : BitReader} {acc : List Message} (hb : r.InBounds)
    (hshort : r.rest.length < NETMSG_TYPE_BITS) :
    readMessages r r.data.length acc = .ok acc := by
  have hlen := hb.pos_add_length_rest
  exact readMessagesLoop_done (by omega) hshort

/-! ## Queued lists -/

theorem encodeMessages_eq {ms : List Message} (h : ∀ m ∈ ms, m.Writable) :
    encodeMessages ms = .ok (BitList.toBytes (BitList.align (bitsAll ms))) := by
  rw [encodeMessages, writeAll_eq h]
  simp

/-- The stored buffer is the messages' bits, padded to whole bytes. -/
theorem ofBytes_encodeMessages {ms : List Message} {data : List UInt8}
    (h : encodeMessages ms = .ok data) :
    (∀ m ∈ ms, m.Writable) ∧ BitList.ofBytes data = BitList.align (bitsAll ms) := by
  rw [encodeMessages, Outcome.bind_eq_ok] at h
  obtain ⟨w, hw, h⟩ := h
  obtain ⟨hms, rfl⟩ := writeAll_eq_ok.mp hw
  refine ⟨hms, ?_⟩
  simp only [List.nil_append, BitWriter.byteAlign_eq, Outcome.ok_bind, BitWriter.buffer_eq,
    Outcome.pure_eq, Outcome.ok.injEq] at h
  rw [← h, BitList.ofBytes_toBytes (BitList.dvd_length_align _)]

theorem encodeMessages_ne_panic (ms : List Message) : encodeMessages ms ≠ .panic :=
  Outcome.bind_ne_panic (writeAll_ne_panic ms _) fun w _ => by simp

/-- `queue_reliable_messages` appends a fresh transfer of the encoded messages,
or fails and leaves the channel as it was. -/
theorem queueReliableMessages_cases (ms : List Message) (self : NetChannel) :
    (∃ stream : OutgoingReliableData, encodeMessages ms = .ok stream.data ∧
      stream.ackedFragments = 0 ∧ stream.pendingFragments = 0 ∧
      queueReliableMessages ms self =
        (.ok (), self.setOutgoing 0 (self.outgoingReliableData 0 ++ [stream]))) ∨
    ∃ e, queueReliableMessages ms self = (.err e, self) := by
  unfold queueReliableMessages
  cases hencode : encodeMessages ms with
  | err e => exact .inr ⟨e, rfl⟩
  | panic => exact absurd hencode (encodeMessages_ne_panic ms)
  | ok data =>
      by_cases hfits : data.length < 2 ^ 32
      · refine .inl ⟨⟨0, 0, data, hfits⟩, rfl, rfl, rfl, ?_⟩
        simp only [Method.lift_bind_ok, OutgoingReliableData.new, hfits, dif_pos,
          Method.modify_apply]
      · refine .inr ⟨.outgoingSizeTooLarge, ?_⟩
        simp only [Method.lift_bind_ok, OutgoingReliableData.new, hfits, dif_neg, not_false_eq_true,
          Method.lift_bind_err]

/-- A queued list of textual messages is decoded from the buffer it is stored
in exactly when its length is not 3 modulo 4: three messages leave six bits
of padding, which read as a message of type 0. -/
theorem queueReliableMessages_decodes_iff {ms : List Message} {self self' : NetChannel}
    (hms : ∀ m ∈ ms, m.Textual) (hqueue : queueReliableMessages ms self = (.ok (), self')) :
    ∃ stream, self'.outgoingReliableData 0 = self.outgoingReliableData 0 ++ [stream] ∧
      (readMessages { data := stream.data, pos := 0 } stream.data.length [] = .ok ms ↔
        ms.length % 4 ≠ 3) := by
  obtain ⟨stream, hencode, -, -, hok⟩ | ⟨e, herr⟩ := queueReliableMessages_cases ms self
  case inr => simp [herr] at hqueue
  obtain ⟨-, rfl⟩ := Prod.mk.inj (hok.symm.trans hqueue)
  obtain ⟨hwritable, hbits⟩ := ofBytes_encodeMessages hencode
  refine ⟨stream, by simp [setOutgoing], ?_⟩
  have hmod := length_bitsAll_mod hwritable
  have hread : readMessages { data := stream.data, pos := 0 } stream.data.length [] =
      .ok ([] ++ ms) ↔ _ :=
    readMessages_padded_eq_ok_iff hms hbits (BitReader.inBounds_start _)
  rw [List.nil_append] at hread
  rw [hread]
  unfold BitList.padding NETMSG_TYPE_BITS
  omega

end

theorem queueReliableMessages_decodes_print :
    ∃ stream, (queueReliableMessages [.print ⟨"x"⟩] fresh).2.outgoingReliableData 0 =
        fresh.outgoingReliableData 0 ++ [stream] ∧
      (readMessages { data := stream.data, pos := 0 } stream.data.length [] =
        .ok [.print ⟨"x"⟩] ↔ 1 % 4 ≠ 3) :=
  queueReliableMessages_decodes_iff (by decide) (Prod.ext (by decide +kernel) rfl)

/-- Three messages are queued, and are not decoded. -/
theorem queueReliableMessages_three_prints :
    (∀ m ∈ List.replicate 3 (Message.print ⟨"x"⟩), m.Textual) ∧
      ∃ stream self',
        queueReliableMessages (List.replicate 3 (.print ⟨"x"⟩)) fresh = (.ok (), self') ∧
        self'.outgoingReliableData 0 = [stream] ∧
        readMessages { data := stream.data, pos := 0 } stream.data.length [] =
          .err (.unhandledMessageType 0) := by
  refine ⟨by decide, ⟨0, 0, [7, 30, 192, 129, 7, 112, 224, 1, 0], by decide⟩, _,
    Prod.ext (by decide +kernel) rfl, by decide +kernel, by decide +kernel⟩

end NetChannel

end QuickplayServer
