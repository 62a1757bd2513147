import QuickplayServer.Net.Writable

/-!
# QuickplayServer.Net.RawPacket

Datagrams as they come from the socket (`src/net/packet.rs`).

The first four bytes say whether a datagram is split, compressed,
connectionless, or for a channel.  The Snappy decoder of the `snap` crate is a
parameter (`Snap`).
-/

namespace QuickplayServer

def CONNECTIONLESS_HEADER : Nat := 2 ^ 32 - 1
def SPLITPACKET_HEADER : Nat := 2 ^ 32 - 2
def COMPRESSEDPACKET_HEADER : Nat := 2 ^ 32 - 3

/-- `b"SNAP"` -/
def COMPRESSION_SNAPPY : List UInt8 := [83, 78, 65, 80]

/-- The decoder of the `snap` crate, and its errors. -/
class Snap (SnapError : outParam Type) where
  decompressVec : List UInt8 → Except SnapError (List UInt8)

inductive PacketDecoderError (SnapError : Type) where
  /-- "no header flags found" -/
  | noHeaderFlags
  /-- "split packets are currently unimplemented" -/
  | splitPacket
  /-- "no compression type found" -/
  | noCompressionType
  /-- "unknown compression type: {0:02x?}" -/
  | unhandledCompressionType (compressionType : List UInt8)
  /-- "no compressed data found" -/
  | noCompressedData
  /-- "decompression error: {0:?}" -/
  | decompressionError (err : SnapError)
  deriving DecidableEq, Repr

/-- A decompressed packet: `Packet` of `src/net/packet.rs`. -/
inductive DecodedPacket where
  | connectionless (data : List UInt8)
  | regular (data : List UInt8)
  deriving DecidableEq, Repr

section

variable {SnapError : Type} [Snap SnapError]

def decompressPacket (packetData : List UInt8) :
    Except (PacketDecoderError SnapError) (List UInt8) :=
  match getSlice packetData 4 4 with
  | none => .error .noCompressionType
  | some compressionType =>
      if compressionType = COMPRESSION_SNAPPY then
        -- `get(8..)` is there whenever `get(4..8)` is
        match getSlice packetData 8 (packetData.length - 8) with
        | none => .error .noCompressedData
        | some compressedData =>
            match Snap.decompressVec compressedData with
            | .ok data => .ok data
            | .error err => .error (.decompressionError err)
      else .error (.unhandledCompressionType compressionType)

/-- The part of `decode_raw_packet` behind the decompression. -/
def decodeInner (packetData : List UInt8) :
    Except (PacketDecoderError SnapError) DecodedPacket :=
  match getSlice packetData 0 4 with
  | none => .error .noHeaderFlags
  | some innerHeaderFlags =>
      if innerHeaderFlags = BitList.leBytes 4 CONNECTIONLESS_HEADER then
        .ok (.connectionless packetData)
      else .ok (.regular packetData)

def decodeRawPacket (packetData : List UInt8) :
    Except (PacketDecoderError SnapError) DecodedPacket :=
  match getSlice packetData 0 4 with
  | none => .error .noHeaderFlags
  | some headerFlags =>
      if headerFlags = BitList.leBytes 4 SPLITPACKET_HEADER then .error .splitPacket
      else if headerFlags = BitList.leBytes 4 COMPRESSEDPACKET_HEADER then
        match decompressPacket packetData with
        | .ok decompressedPacket => decodeInner decompressedPacket
        | .error e => .error e
      else decodeInner packetData

/-! ## The header of a datagram -/

omit [Snap SnapError] in
theorem getSlice_leBytes (n : Nat) (rest : List UInt8) :
    getSlice (BitList.leBytes 4 n ++ rest) 0 4 = some (BitList.leBytes 4 n) := by
  rw [getSlice, if_pos (by simp), List.drop_zero, List.take_left' (BitList.length_leBytes 4 n)]

omit [Snap SnapError] in
theorem decodeInner_leBytes {n : Nat} (hn : n < 2 ^ 32) (rest : List UInt8) :
    (decodeInner (BitList.leBytes 4 n ++ rest) : Except (PacketDecoderError SnapError) _) =
      .ok (if n = CONNECTIONLESS_HEADER then .connectionless (BitList.leBytes 4 n ++ rest)
        else .regular (BitList.leBytes 4 n ++ rest)) := by
  unfold decodeInner
  rw [getSlice_leBytes]
  simp only [BitList.leBytes_inj (k := 4) hn (show CONNECTIONLESS_HEADER < 2 ^ (8 * 4) by decide)]
  split <;> rfl

/-- What a header says. -/
theorem decodeRawPacket_leBytes {n : Nat} (hn : n < 2 ^ 32) (rest : List UInt8) :
    decodeRawPacket (BitList.leBytes 4 n ++ rest) =
      if n = SPLITPACKET_HEADER then .error .splitPacket
      else if n = COMPRESSEDPACKET_HEADER then
        match decompressPacket (BitList.leBytes 4 n ++ rest) with
        | .ok decompressedPacket => decodeInner decompressedPacket
        | .error e => .error e
      else decodeInner (BitList.leBytes 4 n ++ rest) := by
  unfold decodeRawPacket
  rw [getSlice_leBytes]
  simp only [BitList.leBytes_inj (k := 4) hn (show SPLITPACKET_HEADER < 2 ^ (8 * 4) by decide),
    BitList.leBytes_inj (k := 4) hn (show COMPRESSEDPACKET_HEADER < 2 ^ (8 * 4) by decide)]

/-- The datagram that carries a compressed packet. -/
def snappyDatagram (compressed : List UInt8) : List UInt8 :=
  BitList.leBytes 4 COMPRESSEDPACKET_HEADER ++ (COMPRESSION_SNAPPY ++ compressed)

theorem decompressPacket_snappyDatagram {compressed data : List UInt8}
    (h : Snap.decompressVec compressed = .ok data) :
    (decompressPacket (snappyDatagram compressed) : Except (PacketDecoderError SnapError) _) =
      .ok data := by
  have htype : getSlice (snappyDatagram compressed) 4 4 = some COMPRESSION_SNAPPY := rfl
  have hdata : getSlice (snappyDatagram compressed) 8 ((snappyDatagram compressed).length - 8) =
      some compressed := by
    simp only [getSlice, snappyDatagram, COMPRESSION_SNAPPY, BitList.leBytes, List.cons_append,
      List.nil_append, List.length_cons, List.drop_succ_cons, List.drop_zero]
    rw [if_pos (by omega), List.take_of_length_le (by omega)]
  unfold decompressPacket
  simp only [htype, if_pos, hdata, h]

/-- A compressed packet is not taken for a split or a compressed one again. -/
theorem decodeRawPacket_snappyDatagram {compressed data : List UInt8}
    (h : Snap.decompressVec compressed = .ok data) :
    (decodeRawPacket (snappyDatagram compressed) : Except (PacketDecoderError SnapError) _) =
      decodeInner data := by
  have hdecompress := decompressPacket_snappyDatagram h
  unfold snappyDatagram at hdecompress ⊢
  rw [decodeRawPacket_leBytes (by decide), if_neg (by decide), if_pos rfl, hdecompress]

/-! ## The packets of a channel -/

namespace NetChannel

open Method (Triple Relates)

variable [BitstreamIo]

theorem writeVarint32_appends (value : Nat) (w : BitWriter) :
    BitWriter.Appends (writeVarint32 value w) w := by
  have hloop : ∀ left value w, BitWriter.Appends (writeVarint32Loop left value w) w := by
    intro left
    induction left with
    | zero => exact fun value w => BitWriter.Appends.writeOut _ _
    | succ left ih =>
        intro value w
        refine BitWriter.Appends.ite ?_ (BitWriter.Appends.writeOut _ _)
        exact BitWriter.Appends.bind (BitWriter.Appends.writeOut _ _) fun w => ih _ w
  exact hloop _ _ _

/-- The section of a transfer comes behind what the packet has. -/
theorem writeFragment_appends (configuration : Configuration) (startFragment numFragments : Nat)
    (stream : OutgoingReliableData) (w : BitWriter) :
    BitWriter.Appends (writeFragment configuration startFragment numFragments stream w) w := by
  refine BitWriter.Appends.bind (BitWriter.Appends.writeBit _) fun w => ?_
  refine BitWriter.Appends.lift fun offset => BitWriter.Appends.lift fun length => ?_
  refine BitWriter.Appends.lift fun packetTotal => BitWriter.Appends.lift fun total => ?_
  refine BitWriter.Appends.lift fun length => ?_
  refine BitWriter.Appends.bind (BitWriter.Appends.writeBit _) fun w => ?_
  refine BitWriter.Appends.bind (BitWriter.Appends.ite ?_ ?_) fun w =>
    BitWriter.Appends.lift fun slice => BitWriter.Appends.writeBytes _
  · refine BitWriter.Appends.lift fun _ => BitWriter.Appends.lift fun _ => ?_
    refine BitWriter.Appends.lift fun _ => ?_
    exact BitWriter.Appends.bind (BitWriter.Appends.writeBit _) fun w => writeVarint32_appends _ w
  · refine BitWriter.Appends.bind (BitWriter.Appends.writeOut _ _) fun w => ?_
    refine BitWriter.Appends.bind (BitWriter.Appends.writeOut _ _) fun w => ?_
    refine BitWriter.Appends.ite ?_ BitWriter.Appends.ok
    refine BitWriter.Appends.bind (BitWriter.Appends.writeBit _) fun w => ?_
    exact BitWriter.Appends.bind (BitWriter.Appends.writeBit _) fun w =>
      BitWriter.Appends.writeOut _ _

theorem writeStream_appends {bits : List Bool} (k : Fin MAX_SUBCHANNELS) (w : BitWriter)
    (i : Fin MAX_STREAMS) :
    Triple (fun _ => bits <+: w.bits) (writeStream k w i) (fun w' _ => bits <+: w'.bits)
      fun _ _ => True := by
  refine Triple.get_bind fun self hw => ?_
  cases self.outgoingReliableData i with
  | nil =>
      refine Triple.lift (fun w' _ h _ => ?_) fun _ _ _ _ => trivial
      exact hw.trans (BitWriter.Appends.writeBit false w' h)
  | cons stream queue =>
      refine Triple.bind (Q := fun w' _ => bits <+: w'.bits) ?_ fun w' => ?_
      · refine Triple.lift (fun w' _ h _ => ?_) fun _ _ _ _ => trivial
        exact hw.trans (writeFragment_appends _ _ _ _ _ w' h)
      · exact Triple.bind (Q := fun _ _ => bits <+: w'.bits) (Triple.modify fun _ h => h) fun _ =>
          Triple.pure fun _ h => h

theorem writeOutgoingReliableData_appends (w : BitWriter) :
    Triple (fun _ => True) (writeOutgoingReliableData w) (fun x _ => w.bits <+: x.2.bits)
      fun _ _ => True := by
  refine Triple.bind (Triple.any _) fun _ => Triple.get_bind fun self _ => ?_
  cases self.findSubchannel .waitingToSend with
  | none => exact Triple.pure fun _ _ => List.prefix_refl _
  | some k =>
      refine Triple.bind (Q := fun w' _ => w.bits <+: w'.bits) ?_ fun w₁ => ?_
      · exact Triple.lift (fun w' _ h _ => BitWriter.Appends.writeOut _ _ w' h)
          fun _ _ _ _ => trivial
      · refine Triple.bind ?_ fun w' => Triple.pure fun _ h => h
        refine Triple.bind (writeStream_appends k w₁ 0) fun w₂ => ?_
        exact Triple.bind (writeStream_appends k w₂ 1) fun w₃ => Triple.pure fun _ h => h

/-! ### the sequence number -/

omit [BitstreamIo]

/-- The method leaves the outgoing sequence number alone. -/
def SameNumber (self later : NetChannel) : Prop := later.outSequenceNr = self.outSequenceNr

instance : Std.Refl SameNumber := ⟨fun _ => rfl⟩

instance : IsTrans NetChannel SameNumber := ⟨fun _ _ _ h h' => h'.trans h⟩

theorem fillOutgoingSubchannel_sameNumber : Relates SameNumber fillOutgoingSubchannel := by
  have hstreams : ∀ k streams remaining sendData,
      Relates SameNumber (fillStreams k streams remaining sendData) := by
    intro k streams
    induction streams with
    | nil => exact fun _ _ => Relates.pure _
    | cons i streams ih =>
        intro remaining sendData
        refine Relates.get_bind fun self => ?_
        cases self.outgoingReliableData i with
        | nil => exact ih _ _ self
        | cons stream queue =>
            refine Relates.lift_bind fun sent _ => Relates.lift_bind fun total _ => ?_
            split
            · exact ih _ _ self
            · refine Relates.lift_bind fun left _ => Relates.lift_bind fun pending _ => ?_
              refine Relates.modify_bind rfl ?_
              dsimp only
              split
              · exact Relates.pure _
              · exact ih _ _
  refine Relates.get_bind fun self => ?_
  cases self.findSubchannel .free with
  | none => exact rfl
  | some k =>
      refine Relates.bind (hstreams _ _ _ _) (fun sendData => ?_) self
      split
      · exact Relates.modify fun _ => rfl
      · exact Relates.pure _

theorem writeOutgoingReliableData_sameNumber [BitstreamIo] (w : BitWriter) :
    Relates SameNumber (writeOutgoingReliableData w) := by
  have hstream : ∀ k w i, Relates SameNumber (writeStream k w i) := by
    intro k w i
    refine Relates.get_bind fun self => ?_
    cases self.outgoingReliableData i with
    | nil => exact Relates.lift _ self
    | cons stream queue => exact Relates.lift_bind fun _ _ => rfl
  refine Relates.bind fillOutgoingSubchannel_sameNumber fun _ => ?_
  refine Relates.bind Relates.get fun self => ?_
  cases self.findSubchannel .waitingToSend with
  | none => exact Relates.pure _
  | some k =>
      refine Relates.bind (Relates.lift _) fun w => Relates.bind ?_ fun _ => Relates.pure _
      exact Relates.bind (hstream k w 0) fun w => Relates.bind (hstream k w 1) fun _ =>
        Relates.pure _

/-! ### the first four bytes -/

/-- A field in front of the bits of a buffer is in front of its bytes. -/
theorem exists_toBytes_align {k n : Nat} {bits : List Bool} (h : BitList.ofNat (8 * k) n <+: bits) :
    ∃ rest, BitList.toBytes (BitList.align bits) = BitList.leBytes k n ++ rest := by
  obtain ⟨tail, rfl⟩ := h
  refine ⟨BitList.toBytes (BitList.align tail), ?_⟩
  rw [← BitList.ofBytes_leBytes, BitList.align_append (by simp), BitList.toBytes_ofBytes_append]

/-- The flags and the checksum are written behind the sequence number. -/
theorem finishPacket_leBytes [Crc] (flags : PacketFlags) (n : Nat) (rest : List UInt8) :
    ∃ rest', finishPacket flags (BitList.leBytes 4 n ++ rest) = BitList.leBytes 4 n ++ rest' := by
  have hset : ∀ (i : Nat) (b : UInt8) (rest : List UInt8), 4 ≤ i →
      (BitList.leBytes 4 n ++ rest).set i b = BitList.leBytes 4 n ++ rest.set (i - 4) b := by
    intro i b rest hi
    rw [List.set_append_right _ _ (by simpa using hi), BitList.length_leBytes]
  unfold finishPacket
  dsimp only
  split
  · rw [List.append_assoc, hset _ _ _ (by decide), hset _ _ _ (by decide), hset _ _ _ (by decide)]
    exact ⟨_, rfl⟩
  · rw [hset _ _ _ (by decide), hset _ _ _ (by decide), hset _ _ _ (by decide)]
    exact ⟨_, rfl⟩

variable [BitstreamIo] [Crc]

/-- A packet begins with its sequence number. -/
theorem writePacket_leBytes {self self' : NetChannel} {messages : List Message} {bytes : List UInt8}
    (h : writePacket messages self = (.ok bytes, self')) :
    self.outSequenceNr + 1 < 2 ^ 32 ∧
      ∃ rest, bytes = BitList.leBytes 4 self.outSequenceNr ++ rest := by
  unfold writePacket at h
  rw [Method.get_bind] at h
  obtain ⟨w₁, hheader, h⟩ := Method.lift_bind_eq_ok.mp h
  obtain ⟨⟨reliable, w₂⟩, self₂, hreliable, h⟩ := Method.bind_eq_ok.mp h
  obtain ⟨w₃, hmessages, h⟩ := Method.lift_bind_eq_ok.mp h
  obtain ⟨w₄, halign, h⟩ := Method.lift_bind_eq_ok.mp h
  rw [Method.get_bind] at h
  obtain ⟨nr, hnr, h⟩ := Method.lift_bind_eq_ok.mp h
  obtain ⟨hnext, -⟩ := Outcome.add32_eq_ok.mp hnr
  rw [(writeOutgoingReliableData_sameNumber w₁).of_eq hreliable] at hnext
  refine ⟨hnext, ?_⟩
  have hfield : BitList.ofNat (8 * 4) self.outSequenceNr <+: w₁.bits := by
    obtain ⟨w, hw, hheader⟩ := Outcome.bind_eq_ok.mp hheader
    obtain ⟨-, rfl⟩ := BitWriter.writeOut_eq_ok.mp hw
    refine BitWriter.Appends.bind (BitWriter.Appends.writeOut _ _) (fun w => ?_) w₁ hheader
    refine BitWriter.Appends.bind (BitWriter.Appends.writeOut _ _) fun w => ?_
    refine BitWriter.Appends.bind (BitWriter.Appends.writeOut _ _) fun w => ?_
    exact BitWriter.Appends.bind (BitWriter.Appends.writeOut _ _) fun w =>
      BitWriter.Appends.writeOut _ _
  have hsection := (writeOutgoingReliableData_appends w₁).of_ok trivial hreliable
  have hbody : w₂.bits <+: w₃.bits := by
    obtain ⟨-, rfl⟩ := Message.writeAll_eq_ok.mp hmessages
    exact List.prefix_append _ _
  obtain ⟨rest, hrest⟩ := exists_toBytes_align (hfield.trans (hsection.trans hbody))
  obtain rfl : w₄ = ⟨BitList.align w₃.bits⟩ := by
    simpa [eq_comm] using halign
  obtain ⟨rest', hbytes⟩ := finishPacket_leBytes
    (if reliable then PACKET_FLAG_CHALLENGE ||| PACKET_FLAG_RELIABLE else PACKET_FLAG_CHALLENGE)
    self.outSequenceNr rest
  refine ⟨rest', ?_⟩
  rw [← hbytes, ← hrest, ← BitWriter.buffer_eq ⟨BitList.align w₃.bits⟩]
  exact (Outcome.ok.inj (Prod.mk.inj h).1).symm

variable {SnapError : Type} [Snap SnapError]

/-- A packet of a channel is taken for what it is until its sequence number
runs into the headers; a compressed one always is. -/
theorem decodeRawPacket_writePacket {self self' : NetChannel} {messages : List Message}
    {bytes : List UInt8} (h : writePacket messages self = (.ok bytes, self')) :
    (self.outSequenceNr < COMPRESSEDPACKET_HEADER →
      decodeRawPacket bytes = .ok (.regular bytes)) ∧
    (self.outSequenceNr = SPLITPACKET_HEADER → decodeRawPacket bytes = .error .splitPacket) ∧
    ∀ compressed, Snap.decompressVec compressed = .ok bytes →
      decodeRawPacket (snappyDatagram compressed) = .ok (.regular bytes) := by
  obtain ⟨hnext, rest, rfl⟩ := writePacket_leBytes h
  have hlt : self.outSequenceNr < 2 ^ 32 := by omega
  have hne : self.outSequenceNr ≠ CONNECTIONLESS_HEADER := by
    unfold CONNECTIONLESS_HEADER
    omega
  refine ⟨fun hless => ?_, fun heq => ?_, fun compressed hcompressed => ?_⟩
  · have hsplit : self.outSequenceNr ≠ SPLITPACKET_HEADER := by
      unfold COMPRESSEDPACKET_HEADER at hless
      unfold SPLITPACKET_HEADER
      omega
    rw [decodeRawPacket_leBytes hlt, if_neg hsplit, if_neg hless.ne, decodeInner_leBytes hlt,
      if_neg hne]
  · rw [decodeRawPacket_leBytes hlt, if_pos heq]
  · rw [decodeRawPacket_snappyDatagram hcompressed, decodeInner_leBytes hlt, if_neg hne]

end NetChannel

end

/-- A Snappy decoder for a single short literal. -/
instance literalSnap : Snap Unit where
  decompressVec
    | length :: tag :: data =>
        if 0 < data.length ∧ data.length ≤ 60 ∧ length.toNat = data.length ∧
          tag.toNat = 4 * (data.length - 1) then .ok data else .error ()
    | _ => .error ()

theorem NetChannel.decodeRawPacket_writePacket_fresh : ∃ bytes self',
    writePacket [] fresh = (.ok bytes, self') ∧
    (fresh.outSequenceNr < COMPRESSEDPACKET_HEADER →
      decodeRawPacket bytes = .ok (.regular bytes)) ∧
    (fresh.outSequenceNr = SPLITPACKET_HEADER →
      decodeRawPacket bytes = .error .splitPacket) ∧
    ∀ compressed, Snap.decompressVec compressed = .ok bytes →
      decodeRawPacket (snappyDatagram compressed) = .ok (.regular bytes) := by
  let bytes : List UInt8 := [1, 0, 0, 0, 0, 0, 0, 0, 32, 211, 246, 0, 5, 0, 0, 0]
  have hok : (writePacket [] fresh).1 = .ok bytes := by decide +kernel
  have hwrite : writePacket [] fresh = (.ok bytes, (writePacket [] fresh).2) := by
    rw [← hok]
  exact ⟨bytes, _, hwrite, decodeRawPacket_writePacket hwrite⟩

end QuickplayServer
