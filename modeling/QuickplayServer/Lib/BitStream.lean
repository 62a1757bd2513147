import QuickplayServer.Lib.BitList
import QuickplayServer.Lib.Method

/-!
# QuickplayServer.Lib.BitStream

Little-endian bit readers and writers over a byte buffer.

`BitstreamIo` is the interface of the `bitstream_io` crate as far as it is
used here: its operations, and as fields the documented behaviour that
programs rely on.  The bits of a byte are read and written from the least
significant to the most significant, a field likewise, at any bit offset.
`BitstreamIo.reference` implements the interface.

`Reads f bs a` says that `f` reads exactly the bits `bs` and returns `a`;
compound readers are put together with `Reads.bind`.  `Parses f G` says that
the values `f` reads are those of the grammar `G`, and `Parses.bind` puts
grammars together likewise.
-/

variable {ε α β : Type}

/-- A reader over `data` that has read `pos` bits. -/
structure BitReader where
  data : List UInt8
  pos : Nat
  deriving DecidableEq, Repr

namespace BitReader

/-- The bits not read yet. -/
def rest (r : BitReader) : List Bool := (BitList.ofBytes r.data).drop r.pos

/-- The reader after `n` more bits. -/
def skip (r : BitReader) (n : Nat) : BitReader := { r with pos := r.pos + n }

@[simp] theorem skip_data (r : BitReader) (n : Nat) : (r.skip n).data = r.data := rfl
@[simp] theorem skip_pos (r : BitReader) (n : Nat) : (r.skip n).pos = r.pos + n := rfl
@[simp] theorem skip_zero (r : BitReader) : r.skip 0 = r := rfl

/-- Skipping twice skips the sum. -/
theorem skip_skip (r : BitReader) (m n : Nat) : (r.skip m).skip n = r.skip (m + n) := by
  simp [skip, Nat.add_assoc]

/-- The bits behind a skip are the bits before without those that were skipped. -/
theorem rest_skip (r : BitReader) (n : Nat) : (r.skip n).rest = r.rest.drop n := by
  simp [rest, skip, List.drop_drop]

/-- After its first `bs.length` bits a reader is left with the others. -/
theorem rest_skip_of_append {r : BitReader} {bs tl : List Bool} (h : r.rest = bs ++ tl) :
    (r.skip bs.length).rest = tl := by
  rw [rest_skip, h, List.drop_left]

/-- Behind the first bit is the tail. -/
theorem rest_skip_one {r : BitReader} {b : Bool} {tl : List Bool} (h : r.rest = b :: tl) :
    (r.skip 1).rest = tl := by
  rw [rest_skip, h, List.drop_one, List.tail_cons]

/-- The bits left are those of the data that were not read. -/
theorem length_rest (r : BitReader) : r.rest.length = 8 * r.data.length - r.pos := by
  simp [rest]

/-- The reader has not run past the end of its buffer. -/
def InBounds (r : BitReader) : Prop := r.pos ≤ 8 * r.data.length

/-- A new reader is at the start of its data. -/
theorem inBounds_start (data : List UInt8) : InBounds { data, pos := 0 } := Nat.zero_le _

/-- A new reader has the bits of all bytes ahead of it. -/
theorem rest_start (data : List UInt8) : rest { data, pos := 0 } = BitList.ofBytes data := rfl

/-- Within the data, the bits read and the bits left are all bits. -/
theorem InBounds.pos_add_length_rest {r : BitReader} (h : r.InBounds) :
    r.pos + r.rest.length = 8 * r.data.length := by
  have := h
  rw [length_rest]
  unfold InBounds at this
  omega

/-- A reader that skips bits that are there stays within the data. -/
theorem InBounds.skip {r : BitReader} {bs tl : List Bool} (h : r.InBounds)
    (hr : r.rest = bs ++ tl) : (r.skip bs.length).InBounds := by
  have hlen := h.pos_add_length_rest
  rw [hr, List.length_append] at hlen
  unfold InBounds
  simp only [skip_pos, skip_data]
  omega

end BitReader

/-- A writer, given by the bits written to it so far. -/
structure BitWriter where
  bits : List Bool
  deriving DecidableEq, Repr

open BitReader in
/-- The bit readers and writers of the `bitstream_io` crate, little-endian,
over an in-memory buffer. -/
class BitstreamIo where
  /-- `read_in::<n, _>()`; `none` is the I/O error at the end of the buffer. -/
  readIn (n : Nat) (r : BitReader) : Option (Nat × BitReader)
  /-- `read_bit()`. -/
  readBit (r : BitReader) : Option (Bool × BitReader)
  /-- `read_bytes(slice)` for a slice of `n` bytes. -/
  readBytes (n : Nat) (r : BitReader) : Option (List UInt8 × BitReader)
  /-- What `read_bytes(slice)` leaves in `slice` when it fails. -/
  readBytesFailed (slice : List UInt8) (r : BitReader) : List UInt8
  /-- `position_in_bits()`. -/
  positionInBits (r : BitReader) : Nat
  /-- `write_out::<n, _>(v)`. -/
  writeOut (n v : Nat) (w : BitWriter) : Option BitWriter
  /-- `write_bit(b)`. -/
  writeBit (b : Bool) (w : BitWriter) : Option BitWriter
  /-- `write_bytes(bytes)`. -/
  writeBytes (bytes : List UInt8) (w : BitWriter) : Option BitWriter
  /-- `byte_align()`. -/
  byteAlign (w : BitWriter) : Option BitWriter
  /-- The buffer written to; bits after the last whole byte are not in it yet. -/
  buffer (w : BitWriter) : List UInt8
  readIn_eq : ∀ n r, readIn n r =
    if n ≤ r.rest.length then some (BitList.toNat (r.rest.take n), r.skip n) else none
  readBit_eq : ∀ r, readBit r = r.rest.head?.map fun b => (b, r.skip 1)
  readBytes_eq : ∀ n r, readBytes n r =
    if 8 * n ≤ r.rest.length then
      some (BitList.toBytes (r.rest.take (8 * n)), r.skip (8 * n))
    else none
  length_readBytesFailed : ∀ slice r, (readBytesFailed slice r).length = slice.length
  positionInBits_eq : ∀ r, positionInBits r = r.pos
  /-- A value too large for its field is refused. -/
  writeOut_eq : ∀ n v w, writeOut n v w =
    if v < 2 ^ n then some ⟨w.bits ++ BitList.ofNat n v⟩ else none
  writeBit_eq : ∀ b w, writeBit b w = some ⟨w.bits ++ [b]⟩
  writeBytes_eq : ∀ bytes w, writeBytes bytes w = some ⟨w.bits ++ BitList.ofBytes bytes⟩
  byteAlign_eq : ∀ w, byteAlign w = some ⟨BitList.align w.bits⟩
  buffer_eq : ∀ w, buffer w = BitList.toBytes w.bits

namespace BitstreamIo

/-- The interface, implemented as documented. -/
instance reference : BitstreamIo where
  readIn n r :=
    if n ≤ r.rest.length then some (BitList.toNat (r.rest.take n), r.skip n) else none
  readBit r := r.rest.head?.map fun b => (b, r.skip 1)
  readBytes n r :=
    if 8 * n ≤ r.rest.length then
      some (BitList.toBytes (r.rest.take (8 * n)), r.skip (8 * n))
    else none
  readBytesFailed slice r :=
    BitList.toBytes r.rest ++ slice.drop (BitList.toBytes r.rest).length |>.take slice.length
  positionInBits r := r.pos
  writeOut n v w := if v < 2 ^ n then some ⟨w.bits ++ BitList.ofNat n v⟩ else none
  writeBit b w := some ⟨w.bits ++ [b]⟩
  writeBytes bytes w := some ⟨w.bits ++ BitList.ofBytes bytes⟩
  byteAlign w := some ⟨BitList.align w.bits⟩
  buffer w := BitList.toBytes w.bits
  readIn_eq _ _ := rfl
  readBit_eq _ := rfl
  readBytes_eq _ _ := rfl
  length_readBytesFailed slice r := by
    simp only [List.length_take, List.length_append, List.length_drop]
    omega
  positionInBits_eq _ := rfl
  writeOut_eq _ _ _ := rfl
  writeBit_eq _ _ := rfl
  writeBytes_eq _ _ := rfl
  byteAlign_eq _ := rfl
  buffer_eq _ := rfl

end BitstreamIo

/-- `f` reads exactly the bits `bs`, whatever follows them, and returns `a`. -/
def Reads (f : BitReader → Outcome ε (α × BitReader)) (bs : List Bool) (a : α) : Prop :=
  ∀ r tl, r.rest = bs ++ tl → f r = .ok (a, r.skip bs.length)

namespace Reads

/-- Two readers in sequence read the bits of the first, then those of the second. -/
theorem bind {f : BitReader → Outcome ε (α × BitReader)} {bs bs' : List Bool} {a : α}
    {g : α → BitReader → Outcome ε (β × BitReader)} {b : β}
    (hf : Reads f bs a) (hg : Reads (g a) bs' b) :
    Reads (fun r => f r >>= fun x => g x.1 x.2) (bs ++ bs') b := by
  intro r tl hr
  rw [List.append_assoc] at hr
  simp only [hf r (bs' ++ tl) hr, Outcome.ok_bind]
  rw [hg _ tl (BitReader.rest_skip_of_append hr), BitReader.skip_skip, List.length_append]

/-- What is made of the value reads no bits. -/
theorem map {f : BitReader → Outcome ε (α × BitReader)} {bs : List Bool} {a : α} (hf : Reads f bs a)
    (g : α → β) : Reads (fun r => f r >>= fun x => .ok (g x.1, x.2)) bs (g a) := by
  intro r tl hr
  simp only [hf r tl hr, Outcome.ok_bind]

end Reads

/-- Error types that an I/O error converts into. -/
class FromIo (ε : Type) where
  io : ε

variable [BitstreamIo] [FromIo ε]

/-! ## Reading -/

namespace BitReader

/-- `reader.read_in::<n, _>()?`. -/
def readIn (n : Nat) (r : BitReader) : Outcome ε (Nat × BitReader) :=
  .ofOption FromIo.io (BitstreamIo.readIn n r)

/-- `reader.read_bit()?`. -/
def readBit (r : BitReader) : Outcome ε (Bool × BitReader) :=
  .ofOption FromIo.io (BitstreamIo.readBit r)

/-- `reader.read_bytes(slice)?` for a slice of `n` bytes. -/
def readBytes (n : Nat) (r : BitReader) : Outcome ε (List UInt8 × BitReader) :=
  .ofOption FromIo.io (BitstreamIo.readBytes n r)

/-- `reader.position_in_bits()?`. -/
def positionInBits (r : BitReader) : Nat := BitstreamIo.positionInBits r

/-- The position is counted in bits from the start. -/
@[simp] theorem positionInBits_eq (r : BitReader) : r.positionInBits = r.pos :=
  BitstreamIo.positionInBits_eq r

/-- A field is read back by its width, and what was read is the field of the value. -/
theorem readIn_eq_ok {n v : Nat} {r r' : BitReader} :
    (r.readIn n : Outcome ε _) = .ok (v, r') ↔
      v < 2 ^ n ∧ r' = r.skip n ∧ r.rest = BitList.ofNat n v ++ r'.rest := by
  rw [readIn, Outcome.ofOption_eq_ok, BitstreamIo.readIn_eq]
  constructor
  · intro h
    split at h
    case isFalse => simp at h
    case isTrue hn =>
      simp only [Option.some.injEq, Prod.mk.injEq] at h
      obtain ⟨rfl, rfl⟩ := h
      have hlen : (r.rest.take n).length = n := by simpa using hn
      have hlt := BitList.toNat_lt (r.rest.take n)
      rw [hlen] at hlt
      have hbits := BitList.ofNat_toNat (r.rest.take n)
      rw [hlen] at hbits
      refine ⟨hlt, rfl, ?_⟩
      rw [hbits, rest_skip, List.take_append_drop]
  · rintro ⟨hv, rfl, hrest⟩
    have htake : r.rest.take n = BitList.ofNat n v := by
      rw [hrest, List.take_left' (BitList.length_ofNat n v)]
    have hn : n ≤ r.rest.length := by
      rw [hrest, List.length_append, BitList.length_ofNat]
      exact Nat.le_add_right _ _
    rw [if_pos hn, htake, BitList.toNat_ofNat hv]

/-- A field of whole bytes in front of whole bytes. -/
theorem readIn_of_rest {bytes : List UInt8} {r : BitReader} (hr : r.rest = BitList.ofBytes bytes)
    (k : Nat) :
    (∃ n rest, BitList.takeLe k bytes = some (n, rest) ∧
      (r.readIn (8 * k) : Outcome ε _) = .ok (n, r.skip (8 * k)) ∧
      (r.skip (8 * k)).rest = BitList.ofBytes rest) ∨
    BitList.takeLe k bytes = none ∧ (r.readIn (8 * k) : Outcome ε _) = .err FromIo.io := by
  cases htake : BitList.takeLe k bytes with
  | none =>
      have hshort := BitList.takeLe_eq_none_iff.mp htake
      refine .inr ⟨rfl, ?_⟩
      rw [readIn, BitstreamIo.readIn_eq, if_neg, Outcome.ofOption_none]
      rw [hr, BitList.length_ofBytes]
      omega
  | some x =>
      obtain ⟨n, rest⟩ := x
      obtain ⟨hn, rfl⟩ := BitList.takeLe_eq_some_iff.mp htake
      have hrest : (r.skip (8 * k)).rest = BitList.ofBytes rest := by
        rw [rest_skip, hr, BitList.ofBytes_append]
        exact List.drop_left' (by simp)
      refine .inl ⟨n, rest, rfl, readIn_eq_ok.mpr ⟨hn, rfl, ?_⟩, hrest⟩
      rw [hrest, hr, BitList.ofBytes_append, BitList.ofBytes_leBytes]

/-- Reading past the end is an error, not a panic. -/
theorem readIn_ne_panic (n : Nat) (r : BitReader) : (r.readIn n : Outcome ε _) ≠ .panic :=
  Outcome.ofOption_ne_panic _ _

/-- A bit is read exactly if one is left, and it is the next one. -/
theorem readBit_eq_ok {b : Bool} {r r' : BitReader} :
    (r.readBit : Outcome ε _) = .ok (b, r') ↔ r' = r.skip 1 ∧ r.rest = b :: r'.rest := by
  rw [readBit, Outcome.ofOption_eq_ok, BitstreamIo.readBit_eq]
  constructor
  · intro h
    simp only [Option.map_eq_some_iff, Prod.mk.injEq] at h
    obtain ⟨_, hhead, rfl, rfl⟩ := h
    obtain ⟨tl, htl⟩ := List.head?_eq_some_iff.mp hhead
    exact ⟨rfl, by rw [rest_skip, htl]; rfl⟩
  · rintro ⟨rfl, hrest⟩
    simp [hrest]

/-- The next bit can be read. -/
theorem readBit_of_rest {b : Bool} {r : BitReader} {tl : List Bool} (h : r.rest = b :: tl) :
    (r.readBit : Outcome ε _) = .ok (b, r.skip 1) :=
  readBit_eq_ok.mpr ⟨rfl, by rw [rest_skip_one h, h]⟩

/-- A missing bit is an error, not a panic. -/
theorem readBit_ne_panic (r : BitReader) : (r.readBit : Outcome ε _) ≠ .panic :=
  Outcome.ofOption_ne_panic _ _

/-- Bytes are read exactly if their bits are left, and they are the next ones. -/
theorem readBytes_eq_ok {n : Nat} {bytes : List UInt8} {r r' : BitReader} :
    (r.readBytes n : Outcome ε _) = .ok (bytes, r') ↔
      bytes.length = n ∧ r' = r.skip (8 * n) ∧ r.rest = BitList.ofBytes bytes ++ r'.rest := by
  rw [readBytes, Outcome.ofOption_eq_ok, BitstreamIo.readBytes_eq]
  constructor
  · intro h
    split at h
    case isFalse => simp at h
    case isTrue hn =>
      simp only [Option.some.injEq, Prod.mk.injEq] at h
      obtain ⟨rfl, rfl⟩ := h
      have hlen : (r.rest.take (8 * n)).length = 8 * n := by simpa using hn
      have hdvd : 8 ∣ (r.rest.take (8 * n)).length := ⟨n, hlen⟩
      refine ⟨by rw [BitList.length_toBytes hdvd, hlen]; omega, rfl, ?_⟩
      rw [BitList.ofBytes_toBytes hdvd, rest_skip, List.take_append_drop]
  · rintro ⟨rfl, rfl, hrest⟩
    have htake : r.rest.take (8 * bytes.length) = BitList.ofBytes bytes := by
      rw [hrest, List.take_left' (BitList.length_ofBytes bytes)]
    have hn : 8 * bytes.length ≤ r.rest.length := by
      rw [hrest, List.length_append, BitList.length_ofBytes]
      exact Nat.le_add_right _ _
    rw [if_pos hn, htake, BitList.toBytes_ofBytes]

/-! ### moving on -/

/-- `r'` is `r`, further on in its buffer. -/
structure Before (r r' : BitReader) : Prop where
  data : r'.data = r.data
  pos : r.pos ≤ r'.pos
  inBounds : r.InBounds → r'.InBounds

omit [BitstreamIo] in
/-- A reader is before itself. -/
theorem Before.refl (r : BitReader) : r.Before r := ⟨rfl, le_refl _, id⟩

omit [BitstreamIo] in
/-- Positions in the same data are ordered. -/
theorem Before.trans {r r' r'' : BitReader} (h : r.Before r') (h' : r'.Before r'') :
    r.Before r'' where
  data := h'.data.trans h.data
  pos := h.pos.trans h'.pos
  inBounds := h'.inBounds ∘ h.inBounds

omit [BitstreamIo] in
/-- Skipping bits that are there moves a reader on. -/
theorem before_skip {r : BitReader} {n : Nat} (h : n ≤ r.rest.length) : r.Before (r.skip n) where
  data := rfl
  pos := Nat.le_add_right _ _
  inBounds hb := by
    have := hb.pos_add_length_rest
    unfold InBounds
    rw [skip_pos, skip_data]
    omega

/-- What is read from `r` leaves the reader further on. -/
def Advances (x : Outcome ε (α × BitReader)) (r : BitReader) : Prop :=
  ∀ a r', x = .ok (a, r') → r.Before r'

namespace Advances

variable {r : BitReader}

omit [BitstreamIo] [FromIo ε] in
/-- Returning the reader itself moves it nowhere. -/
theorem ok (a : α) : Advances (.ok (a, r) : Outcome ε _) r := by
  rintro _ _ ⟨⟩
  exact Before.refl r

omit [BitstreamIo] [FromIo ε] in
/-- Code that fails returns no reader. -/
theorem err (e : ε) : Advances (.err e : Outcome ε (α × BitReader)) r := nofun

omit [BitstreamIo] [FromIo ε] in
/-- Two parts that move the reader on move it on together. -/
theorem bind {x : Outcome ε (β × BitReader)} {f : β × BitReader → Outcome ε (α × BitReader)}
    (hx : Advances x r) (hf : ∀ b r', Advances (f (b, r')) r') : Advances (x >>= f) r := by
  intro a r'' h
  obtain ⟨⟨b, r'⟩, hb, h⟩ := Outcome.bind_eq_ok.mp h
  exact (hx b r' hb).trans (hf b r' a r'' h)

omit [BitstreamIo] [FromIo ε] in
/-- Code in between that does not read. -/
theorem lift {x : Outcome ε β} {f : β → Outcome ε (α × BitReader)}
    (hf : ∀ b, Advances (f b) r) : Advances (x >>= f) r := by
  intro a r' h
  obtain ⟨b, -, h⟩ := Outcome.bind_eq_ok.mp h
  exact hf b a r' h

omit [BitstreamIo] [FromIo ε] in
/-- A choice moves the reader on if both branches do. -/
theorem ite {c : Prop} [Decidable c] {x y : Outcome ε (α × BitReader)} (hx : Advances x r)
    (hy : Advances y r) : Advances (if c then x else y) r := by
  split <;> assumption

/-- A field moves the reader on by its width. -/
theorem readIn (n : Nat) : Advances (r.readIn n : Outcome ε _) r := by
  intro v r' h
  obtain ⟨-, rfl, hrest⟩ := readIn_eq_ok.mp h
  refine before_skip ?_
  rw [hrest, List.length_append, BitList.length_ofNat]
  exact Nat.le_add_right _ _

/-- A bit moves the reader on by one. -/
theorem readBit : Advances (r.readBit : Outcome ε _) r := by
  intro b r' h
  obtain ⟨rfl, hrest⟩ := readBit_eq_ok.mp h
  refine before_skip ?_
  rw [hrest, List.length_cons]
  omega

end Advances

end BitReader

namespace Reads

/-- A number that fits the field is read from its bits. -/
theorem readIn {n v : Nat} (h : v < 2 ^ n) :
    Reads (BitReader.readIn n : BitReader → Outcome ε _) (BitList.ofNat n v) v := by
  intro r tl hr
  rw [BitReader.readIn_eq_ok]
  refine ⟨h, by rw [BitList.length_ofNat], ?_⟩
  rw [BitReader.rest_skip_of_append hr, hr]

/-- Bytes are read from their bits. -/
theorem readBytes (bytes : List UInt8) :
    Reads (BitReader.readBytes bytes.length : BitReader → Outcome ε _) (BitList.ofBytes bytes)
    bytes := by
  intro r tl hr
  rw [BitReader.readBytes_eq_ok]
  refine ⟨rfl, by rw [BitList.length_ofBytes], ?_⟩
  rw [BitReader.rest_skip_of_append hr, hr]

end Reads

/-- `f` reads a value exactly where the grammar `G` has it at the front of the
bits: `G bits a tl` says that the bits start with `a` and go on with `tl`. -/
structure Parses (f : BitReader → Outcome ε (α × BitReader))
    (G : List Bool → α → List Bool → Prop) : Prop where
  sound : ∀ {r a r'}, f r = .ok (a, r') → G r.rest a r'.rest
  complete : ∀ {r a tl}, G r.rest a tl → ∃ r', f r = .ok (a, r') ∧ r'.rest = tl

namespace Parses

variable {f : BitReader → Outcome ε (α × BitReader)} {F : List Bool → α → List Bool → Prop}

omit [BitstreamIo] [FromIo ε] in
/-- The grammar of a reader may be exchanged for an equivalent one. -/
theorem congr {G : List Bool → α → List Bool → Prop} (hf : Parses f F)
    (h : ∀ bits a tl, F bits a tl ↔ G bits a tl) : Parses f G where
  sound hread := (h _ _ _).mp (hf.sound hread)
  complete hG := hf.complete ((h _ _ _).mpr hG)

omit [BitstreamIo] [FromIo ε] in
/-- Two readers in sequence read what the first grammar has at the front and
the second one behind it. -/
theorem bind {g : α → BitReader → Outcome ε (β × BitReader)}
    {G : α → List Bool → β → List Bool → Prop} (hf : Parses f F) (hg : ∀ a, Parses (g a) (G a)) :
    Parses (fun r => f r >>= fun x => g x.1 x.2)
      (fun bits b tl => ∃ a mid, F bits a mid ∧ G a mid b tl) where
  sound := by
    intro r b r' h
    obtain ⟨⟨a, r₁⟩, hfirst, hsecond⟩ := Outcome.bind_eq_ok.mp h
    exact ⟨a, r₁.rest, hf.sound hfirst, (hg a).sound hsecond⟩
  complete := by
    rintro r b tl ⟨a, mid, hF, hG⟩
    obtain ⟨r₁, hfirst, rfl⟩ := hf.complete hF
    obtain ⟨r', hsecond, htl⟩ := (hg a).complete hG
    exact ⟨r', by rw [hfirst, Outcome.ok_bind, hsecond], htl⟩

omit [BitstreamIo] [FromIo ε] in
/-- What is made of the value reads no bits. -/
theorem map (hf : Parses f F) (g : α → β) :
    Parses (fun r => f r >>= fun x => .ok (g x.1, x.2))
      (fun bits b tl => ∃ a, F bits a tl ∧ b = g a) where
  sound := by
    intro r b r' h
    obtain ⟨⟨a, r₁⟩, hread, h⟩ := Outcome.bind_eq_ok.mp h
    cases h
    exact ⟨a, hf.sound hread, rfl⟩
  complete := by
    rintro r _ tl ⟨a, hF, rfl⟩
    obtain ⟨r', hread, htl⟩ := hf.complete hF
    exact ⟨r', by rw [hread, Outcome.ok_bind], htl⟩

/-- A number of `n` bits is read from its bits. -/
theorem readIn (n : Nat) :
    Parses (BitReader.readIn n : BitReader → Outcome ε _)
      (fun bits v tl => v < 2 ^ n ∧ bits = BitList.ofNat n v ++ tl) where
  sound h := by
    obtain ⟨hv, rfl, hrest⟩ := BitReader.readIn_eq_ok.mp h
    exact ⟨hv, hrest⟩
  complete := by
    rintro r v tl ⟨hv, hrest⟩
    exact ⟨_, Reads.readIn hv r tl hrest, BitReader.rest_skip_of_append hrest⟩

end Parses

/-! ## Writing -/

namespace BitWriter

/-- `writer.write_out::<n, _>(v)?`. -/
def writeOut (n v : Nat) (w : BitWriter) : Outcome ε BitWriter :=
  .ofOption FromIo.io (BitstreamIo.writeOut n v w)

/-- `writer.write_bit(b)?`. -/
def writeBit (b : Bool) (w : BitWriter) : Outcome ε BitWriter :=
  .ofOption FromIo.io (BitstreamIo.writeBit b w)

/-- `writer.write_bytes(bytes)?`. -/
def writeBytes (bytes : List UInt8) (w : BitWriter) : Outcome ε BitWriter :=
  .ofOption FromIo.io (BitstreamIo.writeBytes bytes w)

/-- `writer.byte_align()?`. -/
def byteAlign (w : BitWriter) : Outcome ε BitWriter :=
  .ofOption FromIo.io (BitstreamIo.byteAlign w)

/-- The bytes written so far. -/
def buffer (w : BitWriter) : List UInt8 := BitstreamIo.buffer w

/-- A number that fits its field appends the bits of the field. -/
@[simp] theorem writeOut_of_lt {n v : Nat} (h : v < 2 ^ n) (w : BitWriter) :
    (w.writeOut n v : Outcome ε _) = .ok ⟨w.bits ++ BitList.ofNat n v⟩ := by
  rw [writeOut, BitstreamIo.writeOut_eq, if_pos h, Outcome.ofOption_some]

/-- A number that does not fit its field is an I/O error. -/
theorem writeOut_of_le {n v : Nat} (h : 2 ^ n ≤ v) (w : BitWriter) :
    (w.writeOut n v : Outcome ε _) = .err FromIo.io := by
  rw [writeOut, BitstreamIo.writeOut_eq, if_neg (Nat.not_lt.mpr h), Outcome.ofOption_none]

/-- A field is written exactly if the number fits it. -/
theorem writeOut_eq_ok {n v : Nat} {w w' : BitWriter} :
    (w.writeOut n v : Outcome ε _) = .ok w' ↔ v < 2 ^ n ∧ w' = ⟨w.bits ++ BitList.ofNat n v⟩ := by
  by_cases hv : v < 2 ^ n
  · simp [hv, eq_comm]
  · simp [writeOut_of_le (Nat.not_lt.mp hv), hv]

/-- Writing a field has no other error. -/
theorem writeOut_eq_err {n v : Nat} {w : BitWriter} {e : ε} (h : w.writeOut n v = .err e) :
    e = FromIo.io := by
  by_cases hv : v < 2 ^ n
  · simp [hv] at h
  · simpa [writeOut_of_le (Nat.not_lt.mp hv), eq_comm] using h

/-- A bit can always be written. -/
@[simp] theorem writeBit_eq (b : Bool) (w : BitWriter) :
    (w.writeBit b : Outcome ε _) = .ok ⟨w.bits ++ [b]⟩ := by
  rw [writeBit, BitstreamIo.writeBit_eq, Outcome.ofOption_some]

/-- Bytes can always be written, and append their bits. -/
@[simp] theorem writeBytes_eq (bytes : List UInt8) (w : BitWriter) :
    (w.writeBytes bytes : Outcome ε _) = .ok ⟨w.bits ++ BitList.ofBytes bytes⟩ := by
  rw [writeBytes, BitstreamIo.writeBytes_eq, Outcome.ofOption_some]

/-- Padding appends zero bits up to the next byte. -/
@[simp] theorem byteAlign_eq (w : BitWriter) :
    (w.byteAlign : Outcome ε _) = .ok ⟨BitList.align w.bits⟩ := by
  rw [byteAlign, BitstreamIo.byteAlign_eq, Outcome.ofOption_some]

/-- The buffer has the whole bytes of what was written. -/
@[simp] theorem buffer_eq (w : BitWriter) : w.buffer = BitList.toBytes w.bits :=
  BitstreamIo.buffer_eq w

/-! ### what is there stays in front -/

/-- What is written to `w` comes behind its bits. -/
def Appends (x : Outcome ε BitWriter) (w : BitWriter) : Prop :=
  ∀ w', x = .ok w' → w.bits <+: w'.bits

namespace Appends

variable {w : BitWriter}

omit [BitstreamIo] [FromIo ε] in
/-- Returning the writer itself appends nothing. -/
theorem ok : Appends (.ok w : Outcome ε _) w := by
  rintro _ ⟨⟩
  exact List.prefix_refl _

omit [BitstreamIo] [FromIo ε] in
/-- Two parts that append bits append them one after the other. -/
theorem bind {x : Outcome ε BitWriter} {f : BitWriter → Outcome ε BitWriter} (hx : Appends x w)
    (hf : ∀ w', Appends (f w') w') : Appends (x >>= f) w := by
  intro w'' h
  obtain ⟨w', hw', h⟩ := Outcome.bind_eq_ok.mp h
  exact (hx w' hw').trans (hf w' w'' h)

omit [BitstreamIo] [FromIo ε] in
/-- Code in between that does not write. -/
theorem lift {x : Outcome ε α} {f : α → Outcome ε BitWriter} (hf : ∀ a, Appends (f a) w) :
    Appends (x >>= f) w := by
  intro w' h
  obtain ⟨a, -, h⟩ := Outcome.bind_eq_ok.mp h
  exact hf a w' h

omit [BitstreamIo] [FromIo ε] in
/-- A choice appends bits if both branches do. -/
theorem ite {c : Prop} [Decidable c] {x y : Outcome ε BitWriter} (hx : Appends x w)
    (hy : Appends y w) : Appends (if c then x else y) w := by
  split <;> assumption

/-- A field appends its bits. -/
theorem writeOut (n v : Nat) : Appends (w.writeOut n v : Outcome ε _) w := by
  intro w' h
  obtain ⟨-, rfl⟩ := writeOut_eq_ok.mp h
  exact List.prefix_append _ _

/-- A bit appends itself. -/
theorem writeBit (b : Bool) : Appends (w.writeBit b : Outcome ε _) w := by
  rw [writeBit_eq]
  rintro _ ⟨⟩
  exact List.prefix_append _ _

/-- Bytes append their bits. -/
theorem writeBytes (bytes : List UInt8) : Appends (w.writeBytes bytes : Outcome ε _) w := by
  rw [writeBytes_eq]
  rintro _ ⟨⟩
  exact List.prefix_append _ _

end Appends

end BitWriter
