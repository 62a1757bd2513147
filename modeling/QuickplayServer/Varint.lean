import QuickplayServer.IoUtil

/-!
# QuickplayServer.Varint

The codec of varints (`src/io_util.rs`) over whole byte streams.

* `readVarint32_eq` — the reader takes the bytes up to the first one without
  the continuation bit, five at the most, and returns the sum of their low
  seven bits in place, modulo 2^32;
* `varint32_codec` — what the writer writes is read back, and is the shortest
  sequence of bytes that is.
-/

namespace QuickplayServer

/-! ## Groups of seven bits -/

/-- The number of bytes taken by a reader that may take `left` of them: those
up to the first one without the continuation bit. -/
def varintLength (left : Nat) (bytes : List UInt8) : Nat :=
  min left ((bytes.takeWhile fun b => 128 ≤ b.toNat).length + 1)

/-- The low seven bits of every byte, each at its place. -/
def groupSum (bytes : List UInt8) : Nat :=
  ∑ i : Fin bytes.length, (bytes.get i).toNat % 128 * 2 ^ (7 * i.val)

@[simp] theorem varintLength_zero (bytes : List UInt8) : varintLength 0 bytes = 0 := Nat.zero_min _

theorem varintLength_pos (left : Nat) (bytes : List UInt8) : 0 < varintLength (left + 1) bytes := by
  unfold varintLength
  omega

theorem varintLength_of_last {b : UInt8} (h : b.toNat < 128) (left : Nat) (bytes : List UInt8) :
    varintLength (left + 1) (b :: bytes) = 1 := by
  simp [varintLength, Nat.not_le.mpr h]

theorem varintLength_of_continues {b : UInt8} (h : 128 ≤ b.toNat) (left : Nat)
    (bytes : List UInt8) :
    varintLength (left + 1) (b :: bytes) = varintLength left bytes + 1 := by
  simp only [varintLength, List.takeWhile_cons, h, decide_true, if_true, List.length_cons]
  omega

@[simp] theorem groupSum_nil : groupSum [] = 0 := rfl

theorem groupSum_cons (b : UInt8) (bytes : List UInt8) :
    groupSum (b :: bytes) = b.toNat % 128 + groupSum bytes * 2 ^ 7 := by
  have hshift : ∀ i : Fin bytes.length, (bytes.get i).toNat % 128 * 2 ^ (7 * (i.val + 1)) =
      (bytes.get i).toNat % 128 * 2 ^ (7 * i.val) * 2 ^ 7 := by
    intro i
    rw [Nat.mul_succ, Nat.pow_add, Nat.mul_assoc]
  simp only [groupSum, List.length_cons, Fin.sum_univ_succ, List.get_cons_zero, List.get_cons_succ',
    Fin.val_zero, Fin.val_succ, Nat.mul_zero, Nat.pow_zero, Nat.mul_one, hshift, Finset.sum_mul]

theorem groupSum_lt (bytes : List UInt8) : groupSum bytes < 2 ^ (7 * bytes.length) := by
  induction bytes with
  | nil => decide
  | cons b bytes ih =>
      rw [groupSum_cons, List.length_cons, Nat.mul_succ, Nat.pow_add]
      have hlow : b.toNat % 128 < 128 := Nat.mod_lt _ (by decide)
      omega

/-- A group lands above the bits read before it, without what exceeds 32 bits. -/
theorem or_shiftLeft_group_mod {result count : Nat} (group : Nat) (hcount : count ≤ 4)
    (hresult : result < 2 ^ (7 * count)) :
    result ||| (group <<< (7 * count)) % 2 ^ 32 = (result + group * 2 ^ (7 * count)) % 2 ^ 32 := by
  have hsplit : 2 ^ 32 = 2 ^ (7 * count) * 2 ^ (32 - 7 * count) := by
    rw [← Nat.pow_add]
    congr 1
    omega
  have hfit : group % 2 ^ (32 - 7 * count) * 2 ^ (7 * count) < 2 ^ 32 := by
    rw [hsplit, Nat.mul_comm]
    exact Nat.mul_lt_mul_of_pos_left (Nat.mod_lt _ (Nat.two_pow_pos _)) (Nat.two_pow_pos _)
  have hcut : (group <<< (7 * count)) % 2 ^ 32 =
      (group % 2 ^ (32 - 7 * count)) <<< (7 * count) % 2 ^ 32 := by
    rw [Nat.shiftLeft_eq, Nat.shiftLeft_eq, Nat.mod_eq_of_lt hfit, hsplit, Nat.mul_comm,
      Nat.mul_mod_mul_left, Nat.mul_comm]
  rw [hcut, or_shiftLeft_group hresult hfit, hsplit, Nat.mod_mul, Nat.add_mul_mod_self_right,
    Nat.mod_eq_of_lt hresult, Nat.add_mul_div_right _ _ (Nat.two_pow_pos _),
    Nat.div_eq_of_lt hresult, Nat.zero_add, Nat.mul_comm]

section

variable [BitstreamIo]

/-! ## Reading -/

/-- The loop with `left` more bytes allowed, over any byte stream that does not end first. -/
theorem readVarint32Loop_eq {left count result : Nat} {bytes : List UInt8} {r : BitReader}
    {tl : List Bool} (hcount : left + count = MAX_VARINT_32_BYTES)
    (hresult : result < 2 ^ (7 * count)) (hbound : result < 2 ^ 32)
    (hr : r.rest = BitList.ofBytes bytes ++ tl) (henough : varintLength left bytes ≤ bytes.length) :
    readVarint32Loop left result r =
      .ok ((result + groupSum (bytes.take (varintLength left bytes)) * 2 ^ (7 * count)) % 2 ^ 32,
        r.skip (8 * varintLength left bytes)) := by
  induction left generalizing count result bytes r with
  | zero =>
      simp only [readVarint32Loop, varintLength_zero, List.take_zero, groupSum_nil, Nat.zero_mul,
        Nat.add_zero, Nat.mod_eq_of_lt hbound, Nat.mul_zero, BitReader.skip_zero]
  | succ left ih =>
      cases bytes with
      | nil => exact absurd henough (Nat.not_le.mpr (varintLength_pos left []))
      | cons b bytes =>
          unfold MAX_VARINT_32_BYTES at hcount
          have hindex : MAX_VARINT_32_BYTES - (left + 1) = count := by
            unfold MAX_VARINT_32_BYTES; omega
          rw [BitList.ofBytes_cons, List.append_assoc] at hr
          have hread := Reads.readIn (ε := Error) b.toNat_lt r _ hr
          have hrest := BitReader.rest_skip_of_append hr
          rw [BitList.length_ofNat] at hread hrest
          have hgroup := or_shiftLeft_group_mod (b.toNat % 128) (by omega) hresult
          simp only [readVarint32Loop, hread, Outcome.ok_bind, hindex, and_0x7f, hgroup]
          by_cases hb : b.toNat < 128
          · rw [if_pos ((and_0x80_eq_zero b.toNat_lt).mpr hb), varintLength_of_last hb]
            simp [groupSum_cons]
          · rw [if_neg (hb ∘ (and_0x80_eq_zero b.toNat_lt).mp)]
            have hb : 128 ≤ b.toNat := Nat.not_lt.mp hb
            rw [varintLength_of_continues hb, List.length_cons] at henough
            have hpow : 2 ^ (7 * (count + 1)) = 2 ^ 7 * 2 ^ (7 * count) := by
              rw [Nat.mul_succ, Nat.pow_add, Nat.mul_comm]
            have hlow : (b.toNat % 128 + 1) * 2 ^ (7 * count) ≤ 2 ^ 7 * 2 ^ (7 * count) :=
              Nat.mul_le_mul_right _ (Nat.mod_lt _ (by decide))
            have hnext :
                (result + b.toNat % 128 * 2 ^ (7 * count)) % 2 ^ 32 < 2 ^ (7 * (count + 1)) := by
              refine Nat.lt_of_le_of_lt (Nat.mod_le _ _) ?_
              rw [hpow]
              rw [Nat.add_mul, Nat.one_mul] at hlow
              omega
            have hloop := ih (by unfold MAX_VARINT_32_BYTES; omega) hnext (Nat.mod_lt _ (by decide))
              hrest (by omega)
            rw [hloop, varintLength_of_continues hb, List.take_succ_cons, groupSum_cons,
              Nat.mod_add_mod, BitReader.skip_skip, hpow]
            congr 3 <;> ring

/-- `read_varint32` on any byte stream with enough bytes. -/
theorem readVarint32_eq {bytes : List UInt8} {r : BitReader} {tl : List Bool}
    (hr : r.rest = BitList.ofBytes bytes ++ tl)
    (henough : varintLength MAX_VARINT_32_BYTES bytes ≤ bytes.length) :
    readVarint32 r =
      .ok (groupSum (bytes.take (varintLength MAX_VARINT_32_BYTES bytes)) % 2 ^ 32,
        r.skip (8 * varintLength MAX_VARINT_32_BYTES bytes)) := by
  have hstart : 0 < 2 ^ (7 * 0) := by decide
  have hloop := readVarint32Loop_eq (Nat.add_zero _) hstart (by decide) hr henough
  simpa [readVarint32] using hloop

/-! ## Writing -/

omit [BitstreamIo] in
/-- The groups written for a value: only the last one is without the
continuation bit, and the value needs that many of them. -/
theorem exists_varintBytes {left value : Nat} (h : value < 128 ^ (left + 1)) :
    ∃ init last, varintBytes left value = init ++ [last] ∧ init.length ≤ left ∧
      (∀ b ∈ init, 128 ≤ b ∧ b < 256) ∧ last < 128 ∧ (init = [] ∨ 128 ^ init.length ≤ value) := by
  induction left generalizing value with
  | zero => exact ⟨[], value % 128, rfl, le_refl _, by simp, Nat.mod_lt _ (by decide), .inl rfl⟩
  | succ left ih =>
      by_cases hbig : value > 0x7f
      · have hhigh : value / 128 < 128 ^ (left + 1) := by
          rw [Nat.div_lt_iff_lt_mul (by decide)]
          rwa [Nat.pow_succ] at h
        obtain ⟨init, last, heq, hlen, hinit, hlast, hneeds⟩ := ih hhigh
        refine ⟨(value % 128 + 128) :: init, last, ?_, ?_, ?_, hlast, .inr ?_⟩
        · rw [varintBytes, if_pos hbig, heq, List.cons_append]
        · rw [List.length_cons]
          omega
        · rw [List.forall_mem_cons]
          exact ⟨by omega, hinit⟩
        · rw [List.length_cons, Nat.pow_succ, ← Nat.le_div_iff_mul_le (by decide)]
          obtain rfl | hneeds := hneeds
          · simp only [List.length_nil, Nat.pow_zero]
            omega
          · exact hneeds
      · exact ⟨[], value, by rw [varintBytes, if_neg hbig, List.nil_append], Nat.zero_le _, by simp,
          by omega, .inl rfl⟩

omit [BitstreamIo] in
/-- The bits of groups that are bytes. -/
theorem flatMap_ofNat_eight {groups : List Nat} (h : ∀ b ∈ groups, b < 256) :
    groups.flatMap (BitList.ofNat 8) = BitList.ofBytes (groups.map UInt8.ofNat) := by
  induction groups with
  | nil => rfl
  | cons b groups ih =>
      rw [List.forall_mem_cons] at h
      rw [List.flatMap_cons, List.map_cons, BitList.ofBytes_cons, ih h.2, UInt8.toNat_ofNat',
        Nat.mod_eq_of_lt h.1]

/-- The bytes of a varint: five at the most, and only the last one is without
the continuation bit. -/
structure IsVarint (bytes : List UInt8) : Prop where
  exists_append :
    ∃ init last, bytes = init ++ [last] ∧ (∀ b ∈ init, 128 ≤ b.toNat) ∧ last.toNat < 128
  length_le : bytes.length ≤ MAX_VARINT_32_BYTES

omit [BitstreamIo] in
/-- The bytes that `write_varint32` appends. -/
theorem exists_writeVarint32 {value : Nat} (h : value < 2 ^ 32) :
    ∃ bytes, IsVarint bytes ∧ varintBits value = BitList.ofBytes bytes ∧
      (bytes.length = 1 ∨ 2 ^ (7 * (bytes.length - 1)) ≤ value) := by
  have hfit : value < 128 ^ (MAX_VARINT_32_BYTES - 1 + 1) := Nat.lt_trans h (by decide)
  obtain ⟨init, last, heq, hlen, hinit, hlast, hneeds⟩ := exists_varintBytes hfit
  have hbytes : ∀ b ∈ varintBytes (MAX_VARINT_32_BYTES - 1) value, b < 256 := by
    intro b hb
    rw [heq, List.mem_append, List.mem_singleton] at hb
    obtain hb | rfl := hb
    · exact (hinit b hb).2
    · omega
  refine ⟨_, ⟨⟨init.map UInt8.ofNat, UInt8.ofNat last, ?_, ?_, ?_⟩, ?_⟩,
    flatMap_ofNat_eight hbytes, ?_⟩
  · rw [heq, List.map_append, List.map_singleton]
  · intro b hb
    obtain ⟨b, hmem, rfl⟩ := List.mem_map.mp hb
    rw [UInt8.toNat_ofNat', Nat.mod_eq_of_lt (hinit b hmem).2]
    exact (hinit b hmem).1
  · rw [UInt8.toNat_ofNat']
    omega
  · rw [List.length_map, heq, List.length_append]
    unfold MAX_VARINT_32_BYTES at *
    simp only [List.length_singleton]
    omega
  · rw [List.length_map, heq, List.length_append, List.length_singleton, Nat.add_sub_cancel,
      Nat.pow_mul]
    refine hneeds.imp ?_ id
    rintro rfl
    rfl

/-- As many bytes as a value is read from are enough for it. -/
theorem lt_of_reads_readVarint32 {bytes : List UInt8} {value : Nat}
    (h : Reads readVarint32 (BitList.ofBytes bytes) value) :
    0 < bytes.length ∧ value < 2 ^ (7 * bytes.length) := by
  -- a reader over the bytes with as many others behind them as a varint can take
  let others := List.replicate MAX_VARINT_32_BYTES (0 : UInt8)
  have hrest : (⟨bytes ++ others, 0⟩ : BitReader).rest =
      BitList.ofBytes bytes ++ BitList.ofBytes others := by
    simp [BitReader.rest]
  have henough : varintLength MAX_VARINT_32_BYTES (bytes ++ others) ≤ (bytes ++ others).length := by
    rw [List.length_append, List.length_replicate]
    unfold varintLength
    omega
  have hall :
      (⟨bytes ++ others, 0⟩ : BitReader).rest = BitList.ofBytes (bytes ++ others) ++ [] := by
    rw [hrest, BitList.ofBytes_append, List.append_nil]
  have hread := readVarint32_eq hall henough
  rw [h _ _ hrest, Outcome.ok.injEq, Prod.mk.injEq] at hread
  obtain ⟨hvalue, hskip⟩ := hread
  have hlen : bytes.length = varintLength MAX_VARINT_32_BYTES (bytes ++ others) := by
    have hpos := congrArg BitReader.pos hskip
    rw [BitReader.skip_pos, BitReader.skip_pos, BitList.length_ofBytes] at hpos
    omega
  rw [← hlen, List.take_left] at hvalue
  refine ⟨hlen ▸ varintLength_pos 4 _, ?_⟩
  rw [hvalue]
  exact Nat.lt_of_le_of_lt (Nat.mod_le _ _) (groupSum_lt bytes)

/-- What is written is read back, whatever is around it, and nothing shorter
is; and any byte stream with enough bytes is read. -/
theorem varint32_codec (v : UInt32) (w : BitWriter) :
    (∃ bytes, writeVarint32 v.toNat w = .ok ⟨w.bits ++ BitList.ofBytes bytes⟩ ∧ IsVarint bytes ∧
      Reads readVarint32 (BitList.ofBytes bytes) v.toNat ∧
      ∀ other, Reads readVarint32 (BitList.ofBytes other) v.toNat → bytes.length ≤ other.length) ∧
    ∀ (bytes : List UInt8) (r : BitReader) (tl : List Bool),
      r.rest = BitList.ofBytes bytes ++ tl →
      varintLength MAX_VARINT_32_BYTES bytes ≤ bytes.length →
      readVarint32 r =
        .ok (groupSum (bytes.take (varintLength MAX_VARINT_32_BYTES bytes)) % 2 ^ 32,
          r.skip (8 * varintLength MAX_VARINT_32_BYTES bytes)) := by
  constructor
  · obtain ⟨bytes, hshape, hbits, hneeds⟩ := exists_writeVarint32 v.toNat_lt
    refine ⟨bytes, by rw [writeVarint32_eq v.toNat_lt, hbits], hshape,
      hbits ▸ reads_readVarint32 v.toNat_lt, ?_⟩
    intro other hother
    obtain ⟨hpos, hlt⟩ := lt_of_reads_readVarint32 hother
    obtain hone | hneeds := hneeds
    · omega
    · have hpow : 7 * (bytes.length - 1) < 7 * other.length :=
        (Nat.pow_lt_pow_iff_right (by decide)).mp (Nat.lt_of_le_of_lt hneeds hlt)
      omega
  · exact fun bytes r tl => readVarint32_eq

end

/-- Six bytes with the continuation bit in the first five: the sixth is left. -/
theorem varint32_codec_excess :
    readVarint32 ⟨[0xff, 0xff, 0xff, 0xff, 0xff, 0x41], 0⟩ =
      .ok (0xffffffff, ⟨[0xff, 0xff, 0xff, 0xff, 0xff, 0x41], 40⟩) :=
  (varint32_codec 0 ⟨[]⟩).2 [0xff, 0xff, 0xff, 0xff, 0xff, 0x41] _ [] (by decide) (by decide)

end QuickplayServer
