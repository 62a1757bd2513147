import QuickplayServer.Lib.BitStream

/-!
# QuickplayServer.IoUtil

Strings and varints on bit streams (`src/io_util.rs`), and the errors that
the network code reports.
-/

namespace QuickplayServer

/-! ## Errors -/

/-- The `anyhow` errors of the network code, with the values their texts print. -/
inductive Error where
  /-- `std::io::Error` of a bit reader or writer. -/
  | io
  /-- `FromUtf8Error`. -/
  | utf8
  /-- "unhandled message type {message_type}" -/
  | unhandledMessageType (messageType : Nat)
  /-- "unhandled message {message:?} for write" -/
  | unhandledMessageForWrite
  /-- "outgoing reliable data size does not fit into u32" -/
  | outgoingSizeTooLarge
  /-- "checksum mismatch: {calculated:04x} != {expected:04x}" -/
  | checksumMismatch (calculated expected : Nat)
  /-- "challenge mismatch: {challenge:08x} != {self.challenge:08x}" -/
  | challengeMismatch (challenge expected : Nat)
  /-- "challenge value expected, but not given" -/
  | challengeMissing
  /-- "unexpected sequence number {sequence}, our in_sequence_nr is {in_sequence_nr}" -/
  | unexpectedSequence (sequence inSequenceNr : Nat)
  /-- "number of packets dropped ({dropped}) has exceeded maximum allowed ({max})" -/
  | tooManyPacketsDropped (dropped max : Nat)
  /-- "invalid reliable state for subchannel {index} ({send_seq_nr} > {sequence_ack})" -/
  | invalidReliableState (index : Nat) (sendSeqNr : Int) (sequenceAck : Nat)
  /-- "subchannel waiting for ack, but no stream!" -/
  | noStreamForAck
  /-- "subchannel should not be free here!" -/
  | subchannelShouldNotBeFree
  /-- "file transfer" -/
  | fileTransfer
  /-- "compressed data" -/
  | compressedData
  /-- "no active subchannel data" -/
  | noActiveSubchannelData
  /-- "Received out-of-bounds fragment: {start} + {num} > {total}" -/
  | outOfBoundsFragment (start num total : Nat)
  /-- "couldn't get slice for fragment" -/
  | noSliceForFragment
  /-- "Subchannel fragments overflow: {acked} > {total}" -/
  | fragmentsOverflow (acked total : Nat)
  /-- "file upload" -/
  | fileUpload
  /-- "couldn't get slice for outgoing reliable data" -/
  | noSliceForOutgoing
  deriving DecidableEq, Repr

instance : FromIo Error := ⟨.io⟩

/-- `anyhow::Result`. -/
abbrev Result (α : Type) : Type := Outcome Error α

/-! ## Texts and varints as bits -/

/-- `string.as_bytes()`. -/
def asBytes (s : String) : List UInt8 := s.toUTF8.data.toList

/-- `String::from_utf8(data)?`. -/
def fromUtf8 (data : List UInt8) : Result String :=
  .ofOption .utf8 (String.fromUTF8? ⟨data.toArray⟩)

/-- The text contains no NUL byte and is shorter than the reader's limit. -/
structure Readable (maxLen : Nat) (s : String) : Prop where
  noNul : (0 : UInt8) ∉ asBytes s
  lt : (asBytes s).length < maxLen

instance (maxLen : Nat) (s : String) : Decidable (Readable maxLen s) :=
  decidable_of_iff ((0 : UInt8) ∉ asBytes s ∧ (asBytes s).length < maxLen)
    ⟨fun h => ⟨h.1, h.2⟩, fun h => ⟨h.noNul, h.lt⟩⟩

/-- The bits of a text and its terminator. -/
def stringBits (s : String) : List Bool := BitList.ofBytes (asBytes s) ++ BitList.ofNat 8 0

theorem length_stringBits (s : String) : (stringBits s).length = 8 * ((asBytes s).length + 1) := by
  simp [stringBits]; omega

@[simp] theorem fromUtf8_asBytes (s : String) : fromUtf8 (asBytes s) = .ok s := by
  have h : String.fromUTF8? ⟨(asBytes s).toArray⟩ = some s := by
    unfold asBytes String.fromUTF8?
    rw [Array.toArray_toList, String.toUTF8_eq_toByteArray, dif_pos s.isValidUTF8]
    rfl
  rw [fromUtf8, h, Outcome.ofOption_some]

def MAX_VARINT_32_BYTES : Nat := 5

/-- The groups of seven bits that `write_varint32` writes. -/
def varintBytes : (left : Nat) → (value : Nat) → List Nat
  | 0, value => [value % 128]
  | left + 1, value =>
      if value > 0x7f then (value % 128 + 128) :: varintBytes left (value / 128) else [value]

def varintBits (value : Nat) : List Bool :=
  (varintBytes (MAX_VARINT_32_BYTES - 1) value).flatMap (BitList.ofNat 8)

theorem and_0x7f (n : Nat) : n &&& 0x7f = n % 128 := Nat.and_two_pow_sub_one_eq_mod n 7

theorem or_0x80 {n : Nat} (h : n < 128) : n ||| 0x80 = n + 128 := by
  have hor := Nat.two_pow_add_eq_or_of_lt (i := 7) h 1
  rw [Nat.or_comm]
  exact hor.symm.trans (Nat.add_comm _ _)

theorem and_0x80_eq_zero {b : Nat} (h : b < 256) : b &&& 0x80 = 0 ↔ b < 128 := by
  have hbit := Nat.and_two_pow b 7
  rw [Nat.testBit_eq_decide_div_mod_eq] at hbit
  by_cases hb : b < 128
  · simp_all [show b / 128 = 0 by omega]
  · simp_all [show b / 128 = 1 by omega]

/-- A group that still fits 32 bits lands above the bits read before it. -/
theorem or_shiftLeft_group {result group count : Nat} (hresult : result < 2 ^ (7 * count))
    (hgroup : group * 2 ^ (7 * count) < 2 ^ 32) :
    result ||| (group <<< (7 * count)) % 2 ^ 32 = result + group * 2 ^ (7 * count) := by
  rw [Nat.shiftLeft_eq, Nat.mod_eq_of_lt hgroup, Nat.or_comm, Nat.mul_comm,
    ← Nat.two_pow_add_eq_or_of_lt hresult, Nat.add_comm]

variable [BitstreamIo]

/-! ## Strings -/

def writeString (string : String) (writer : BitWriter) : Result BitWriter := do
  let writer ← writer.writeBytes (asBytes string)
  writer.writeOut 8 0

/-- The loop of `read_string`.  It ends after at most `max_len` rounds (and
one when `max_len` is 0), so `max_len + 1` rounds of fuel always suffice. -/
def readStringLoop (maxLen : Nat) : (fuel : Nat) → (data : List UInt8) → (charsRead : Nat) →
    BitReader → Result (List UInt8 × BitReader)
  | 0, _, _, _ => .panic
  | fuel + 1, data, charsRead, reader => do
      let (val, reader) ← reader.readIn 8
      if val = 0 then
        pure (data, reader)
      else
        let data := data ++ [UInt8.ofNat val]
        let charsRead := charsRead + 1
        if charsRead ≥ maxLen then
          pure (data, reader)
        else
          readStringLoop maxLen fuel data charsRead reader

def readString (maxLen : Nat) (reader : BitReader) : Result (String × BitReader) := do
  let (data, reader) ← readStringLoop maxLen (maxLen + 1) [] 0 reader
  let string ← fromUtf8 data
  pure (string, reader)

theorem readString_ne_panic (maxLen : Nat) (reader : BitReader) :
    readString maxLen reader ≠ .panic := by
  have hloop : ∀ (fuel : Nat) (data : List UInt8) (charsRead : Nat) (reader : BitReader),
      maxLen ≤ fuel + charsRead + 1 →
      readStringLoop maxLen (fuel + 1) data charsRead reader ≠ .panic := by
    intro fuel
    induction fuel with
    | zero =>
        intro data charsRead reader hfuel
        refine Outcome.bind_ne_panic (BitReader.readIn_ne_panic _ _) fun (val, reader) _ => ?_
        dsimp only
        split
        · simp
        · rw [if_pos (by omega)]
          simp
    | succ fuel ih =>
        intro data charsRead reader hfuel
        refine Outcome.bind_ne_panic (BitReader.readIn_ne_panic _ _) fun (val, reader) _ => ?_
        dsimp only
        split
        · simp
        · split
          · simp
          · exact ih _ _ _ (by omega)
  exact Outcome.bind_ne_panic (hloop maxLen [] 0 reader (by omega)) fun _ _ =>
    Outcome.bind_ne_panic (Outcome.ofOption_ne_panic _ _) fun _ _ => by simp

open BitReader in
theorem readString_advances (maxLen : Nat) (reader : BitReader) :
    Advances (readString maxLen reader) reader := by
  have hloop : ∀ (fuel : Nat) (data : List UInt8) (charsRead : Nat) (reader : BitReader),
      Advances (readStringLoop maxLen fuel data charsRead reader) reader := by
    intro fuel
    induction fuel with
    | zero => exact fun _ _ _ => nofun
    | succ fuel ih =>
        intro data charsRead reader
        refine Advances.bind (Advances.readIn 8) fun val reader => ?_
        exact Advances.ite (Advances.ok _) (Advances.ite (Advances.ok _) (ih _ _ _))
  exact Advances.bind (hloop _ _ _ _) fun _ _ => Advances.lift fun _ => Advances.ok _

@[simp] theorem writeString_eq (s : String) (w : BitWriter) :
    writeString s w = .ok ⟨w.bits ++ stringBits s⟩ := by
  simp [writeString, stringBits]

/-- The loop copies the bytes up to the terminator and stops just past it. -/
theorem reads_readStringLoop {maxLen fuel charsRead : Nat} {bs data : List UInt8}
    (hnul : (0 : UInt8) ∉ bs) (hlen : charsRead + bs.length < maxLen) (hfuel : bs.length < fuel) :
    Reads (readStringLoop maxLen fuel data charsRead)
      (BitList.ofBytes bs ++ BitList.ofNat 8 0) (data ++ bs) := by
  induction bs generalizing fuel charsRead data with
  | nil =>
      obtain ⟨fuel, rfl⟩ : ∃ f, fuel = f + 1 := ⟨fuel - 1, by simp at hfuel; omega⟩
      intro r tl hr
      have hread := Reads.readIn (ε := Error) (n := 8) (v := 0) (by decide) r tl (by simpa using hr)
      simp [readStringLoop, hread]
  | cons b bs ih =>
      obtain ⟨fuel, rfl⟩ : ∃ f, fuel = f + 1 := ⟨fuel - 1, by simp at hfuel; omega⟩
      simp only [List.mem_cons, not_or] at hnul
      simp only [List.length_cons] at hlen hfuel
      intro r tl hr
      rw [BitList.ofBytes_cons, List.append_assoc, List.append_assoc] at hr
      have hread := Reads.readIn (ε := Error) b.toNat_lt r _ hr
      have hb : b.toNat ≠ 0 := fun h => hnul.1 (UInt8.toNat_inj.mp h.symm)
      have hloop : Reads (readStringLoop maxLen fuel (data ++ [b]) (charsRead + 1)) _ _ :=
        ih hnul.2 (by omega) (by omega)
      have hrest := hloop (r.skip (BitList.ofNat 8 b.toNat).length) tl
        (by rw [BitReader.rest_skip_of_append hr, List.append_assoc])
      have hmore : ¬ maxLen ≤ charsRead + 1 := by omega
      simp only [readStringLoop, hread, Outcome.ok_bind, hb, if_false, ge_iff_le, hmore,
        UInt8.ofNat_toNat, hrest, BitReader.skip_skip, BitList.ofBytes_cons, List.length_append,
        List.append_assoc, List.singleton_append]

/-- A readable text is read back from its bits. -/
theorem reads_readString {maxLen : Nat} {s : String} (h : Readable maxLen s) :
    Reads (readString maxLen) (stringBits s) s := by
  intro r tl hr
  have hlen := h.lt
  have hloop : readStringLoop maxLen (maxLen + 1) [] 0 r = _ :=
    reads_readStringLoop h.noNul (by omega) (by omega) r tl hr
  rw [List.nil_append] at hloop
  simp [readString, hloop, stringBits]

/-! ## Varints -/

/-- The loop of `read_varint32` with `left` more bytes allowed; the
count of bytes read is `MAX_VARINT_32_BYTES - left`. -/
def readVarint32Loop : (left : Nat) → (result : Nat) → BitReader → Result (Nat × BitReader)
  | 0, result, reader => .ok (result, reader)
  | left + 1, result, reader => do
      let count := MAX_VARINT_32_BYTES - (left + 1)
      let (b, reader) ← reader.readIn 8
      let result := result ||| ((b &&& 0x7f) <<< (7 * count)) % 2 ^ 32
      if b &&& 0x80 = 0 then
        pure (result, reader)
      else
        readVarint32Loop left result reader

def readVarint32 (reader : BitReader) : Result (Nat × BitReader) :=
  readVarint32Loop MAX_VARINT_32_BYTES 0 reader

/-- A varint that is cut off is an error. -/
theorem readVarint32_ne_panic (reader : BitReader) : readVarint32 reader ≠ .panic := by
  have hloop : ∀ (left result : Nat) (reader : BitReader),
      readVarint32Loop left result reader ≠ .panic := by
    intro left
    induction left with
    | zero => exact fun _ _ => by simp [readVarint32Loop]
    | succ left ih =>
        intro result reader
        refine Outcome.bind_ne_panic (BitReader.readIn_ne_panic _ _) fun (b, reader) _ => ?_
        dsimp only
        split
        · simp
        · exact ih _ _
  exact hloop _ _ _

open BitReader in
theorem readVarint32_advances (reader : BitReader) : Advances (readVarint32 reader) reader := by
  have hloop : ∀ (left result : Nat) (reader : BitReader),
      Advances (readVarint32Loop left result reader) reader := by
    intro left
    induction left with
    | zero => exact fun _ _ => Advances.ok _
    | succ left ih =>
        intro result reader
        exact Advances.bind (Advances.readIn 8)
          fun b reader => Advances.ite (Advances.ok _) (ih _ _)
  exact hloop _ _ _

/-- The loop of `write_varint32` with at most `left` continuation bytes; a
`u32` has no more than four. -/
def writeVarint32Loop : (left : Nat) → (value : Nat) → BitWriter → Result BitWriter
  | 0, value, writer => writer.writeOut 8 (value &&& 0x7f)
  | left + 1, value, writer =>
      if value > 0x7f then do
        let writer ← writer.writeOut 8 ((value &&& 0x7f) ||| 0x80)
        writeVarint32Loop left (value >>> 7) writer
      else
        writer.writeOut 8 (value &&& 0x7f)

def writeVarint32 (value : Nat) (writer : BitWriter) : Result BitWriter :=
  writeVarint32Loop (MAX_VARINT_32_BYTES - 1) value writer

theorem writeVarint32Loop_eq {left value : Nat} (h : value < 128 ^ (left + 1)) (w : BitWriter) :
    writeVarint32Loop left value w =
      .ok ⟨w.bits ++ (varintBytes left value).flatMap (BitList.ofNat 8)⟩ := by
  induction left generalizing value w with
  | zero => simp [writeVarint32Loop, varintBytes, and_0x7f, Nat.lt_of_lt_of_le (Nat.mod_lt value _)]
  | succ left ih =>
      rw [writeVarint32Loop, varintBytes]
      split
      case isTrue hbig =>
        have hlow : value % 128 < 128 := Nat.mod_lt _ (by decide)
        have hhigh : value / 128 < 128 ^ (left + 1) := by
          rw [Nat.div_lt_iff_lt_mul (by decide)]
          rwa [Nat.pow_succ] at h
        rw [and_0x7f, or_0x80 hlow, BitWriter.writeOut_of_lt (by omega), Outcome.ok_bind,
          Nat.shiftRight_eq_div_pow, ih hhigh]
        simp
      case isFalse hsmall =>
        have hmod : value % 128 = value := Nat.mod_eq_of_lt (by omega)
        rw [and_0x7f, hmod, BitWriter.writeOut_of_lt (by omega)]
        simp

/-- Writing a `u32` appends its groups. -/
theorem writeVarint32_eq {value : Nat} (h : value < 2 ^ 32) (w : BitWriter) :
    writeVarint32 value w = .ok ⟨w.bits ++ varintBits value⟩ :=
  writeVarint32Loop_eq (Nat.lt_trans h (by decide)) w

/-- The reader's loop adds the groups that are left above the bits it has. -/
theorem reads_readVarint32Loop {left count value result : Nat} (hcount : left + count = 4)
    (hresult : result < 2 ^ (7 * count)) (hvalue : value * 2 ^ (7 * count) < 2 ^ 32) :
    Reads (readVarint32Loop (left + 1) result) ((varintBytes left value).flatMap (BitList.ofNat 8))
      (result + value * 2 ^ (7 * count)) := by
  have hmax : MAX_VARINT_32_BYTES - (left + 1) = count := by unfold MAX_VARINT_32_BYTES; omega
  induction left generalizing count value result with
  | zero =>
      obtain rfl : count = 4 := by omega
      have hmod : value % 128 = value := Nat.mod_eq_of_lt (by omega)
      intro r tl hr
      simp only [varintBytes, List.flatMap_cons, List.flatMap_nil, List.append_nil, hmod] at hr ⊢
      have hread := Reads.readIn (ε := Error) (by omega) r tl hr
      have hlast : value &&& 0x80 = 0 := (and_0x80_eq_zero (by omega)).mpr (by omega)
      simp only [readVarint32Loop, hread, Outcome.ok_bind, hmax, hlast, if_true, Outcome.pure_eq,
        and_0x7f, hmod, or_shiftLeft_group hresult hvalue]
  | succ left ih =>
      intro r tl hr
      have hlow : value % 128 < 128 := Nat.mod_lt _ (by decide)
      by_cases hbig : value > 0x7f
      · simp only [varintBytes, hbig, if_true, List.flatMap_cons, List.append_assoc] at hr ⊢
        have hsplit : value % 128 + 128 * (value / 128) = value := Nat.mod_add_div value 128
        have hpow : 2 ^ (7 * (count + 1)) = 128 * 2 ^ (7 * count) := by
          rw [Nat.mul_succ, Nat.pow_add, Nat.mul_comm]
        have hgroup : value % 128 * 2 ^ (7 * count) < 2 ^ 32 :=
          Nat.lt_of_le_of_lt (Nat.mul_le_mul_right _ (Nat.mod_le _ _)) hvalue
        have hsum : value % 128 * 2 ^ (7 * count) + value / 128 * 2 ^ (7 * (count + 1)) =
            value * 2 ^ (7 * count) := by
          rw [hpow, ← Nat.mul_assoc, ← Nat.add_mul, Nat.mul_comm (value / 128), hsplit]
        have hresult' : result + value % 128 * 2 ^ (7 * count) < 2 ^ (7 * (count + 1)) := by
          rw [hpow]
          calc
            result + value % 128 * 2 ^ (7 * count)
                < 2 ^ (7 * count) + value % 128 * 2 ^ (7 * count) := Nat.add_lt_add_right hresult _
            _ = (1 + value % 128) * 2 ^ (7 * count) := by rw [Nat.add_mul, Nat.one_mul]
            _ ≤ 128 * 2 ^ (7 * count) := Nat.mul_le_mul_right _ (by omega)
        have hread := Reads.readIn (ε := Error) (by omega) r _ hr
        have hmore : ¬ (value % 128 + 128) &&& 0x80 = 0 := by
          rw [and_0x80_eq_zero (by omega)]; omega
        have hmod : (value % 128 + 128) % 128 = value % 128 := by omega
        have hcount' : left + (count + 1) = 4 := by omega
        have hrest := ih hcount' hresult' (by omega) (by unfold MAX_VARINT_32_BYTES; omega)
          _ tl (BitReader.rest_skip_of_append hr)
        rw [readVarint32Loop]
        simp only [hread, Outcome.ok_bind, hmax, hmore, if_false, and_0x7f, hmod,
          or_shiftLeft_group hresult hgroup, hrest, BitReader.skip_skip, List.length_append,
          Nat.add_assoc, hsum]
      · have hmod : value % 128 = value := Nat.mod_eq_of_lt (by omega)
        simp only [varintBytes, hbig, if_false, List.flatMap_cons, List.flatMap_nil,
          List.append_nil] at hr ⊢
        have hread := Reads.readIn (ε := Error) (by omega) r tl hr
        have hlast : value &&& 0x80 = 0 := (and_0x80_eq_zero (by omega)).mpr (by omega)
        rw [readVarint32Loop]
        simp only [hread, Outcome.ok_bind, hmax, hlast, if_true, Outcome.pure_eq, and_0x7f, hmod,
          or_shiftLeft_group hresult hvalue]

/-- A `u32` is read back from its groups. -/
theorem reads_readVarint32 {value : Nat} (h : value < 2 ^ 32) :
    Reads readVarint32 (varintBits value) value := by
  have hloop : Reads (readVarint32Loop 5 0) (varintBits value) (0 + value * 2 ^ (7 * 0)) :=
    reads_readVarint32Loop rfl (by decide) (by simpa using h)
  rwa [Nat.mul_zero, Nat.pow_zero, Nat.mul_one, Nat.zero_add] at hloop

end QuickplayServer
