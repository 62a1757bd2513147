import Mathlib

/-!
# QuickplayServer.Lib.BitList

Bit lists with the least significant bit first: fields of a fixed width,
bytes, and padding to a byte boundary.

Everything here is proved once so the packet proofs never redo bit
arithmetic.  A field of width `w` is `ofNat w n`; a byte buffer is
`ofBytes bytes`; `toNat` and `toBytes` undo them.
-/

namespace BitList

/-! ## Fields -/

/-- The low `w` bits of `n`, least significant first. -/
def ofNat : (w n : Nat) → List Bool
  | 0, _ => []
  | w + 1, n => n.testBit 0 :: ofNat w (n / 2)

/-- The number whose bits are `bs`, least significant first. -/
def toNat : List Bool → Nat
  | [] => 0
  | b :: bs => b.toNat + 2 * toNat bs

/-- A field has as many bits as its width says. -/
@[simp] theorem length_ofNat (w n : Nat) : (ofNat w n).length = w := by
  induction w generalizing n with
  | zero => rfl
  | succ w ih => simp [ofNat, ih]

/-- A number that is too large for a field is cut off to its low bits. -/
theorem toNat_ofNat_mod (w n : Nat) : toNat (ofNat w n) = n % 2 ^ w := by
  induction w generalizing n with
  | zero => simp [ofNat, toNat, Nat.mod_one]
  | succ w ih =>
      have hbit : (n.testBit 0).toNat = n % 2 := by
        obtain h | h := Nat.mod_two_eq_zero_or_one n <;> simp [Nat.testBit_zero, h]
      rw [ofNat, toNat, ih, hbit, Nat.pow_succ', Nat.mod_mul]

/-- A value that fits its field is read back from it. -/
theorem toNat_ofNat {w n : Nat} (h : n < 2 ^ w) : toNat (ofNat w n) = n := by
  rw [toNat_ofNat_mod, Nat.mod_eq_of_lt h]

/-- The number in a field fits it. -/
theorem toNat_lt (bs : List Bool) : toNat bs < 2 ^ bs.length := by
  induction bs with
  | nil => simp [toNat]
  | cons b bs ih =>
      have hb : b.toNat ≤ 1 := Bool.toNat_le b
      rw [toNat, List.length_cons, Nat.pow_succ']
      omega

/-- The bits of a field are determined by the number they stand for. -/
theorem ofNat_toNat (bs : List Bool) : ofNat bs.length (toNat bs) = bs := by
  induction bs with
  | nil => rfl
  | cons b bs ih =>
      have hhead : (b.toNat + 2 * toNat bs).testBit 0 = b := by
        cases b <;> simp [Nat.testBit_zero]
      have htail : (b.toNat + 2 * toNat bs) / 2 = toNat bs := by
        have hb : b.toNat ≤ 1 := Bool.toNat_le b
        omega
      rw [List.length_cons, toNat, ofNat, hhead, htail, ih]

/-- A wide field is its low part followed by its high part. -/
theorem ofNat_add (v w n : Nat) : ofNat (v + w) n = ofNat v n ++ ofNat w (n / 2 ^ v) := by
  induction v generalizing n with
  | zero => simp [ofNat]
  | succ v ih =>
      rw [Nat.add_right_comm, ofNat, ofNat, ih, List.cons_append, Nat.div_div_eq_div_mul,
        Nat.pow_succ']

/-- A zero field is a run of zero bits. -/
theorem ofNat_zero (w : Nat) : ofNat w 0 = List.replicate w false := by
  induction w with
  | zero => rfl
  | succ w ih => simp [ofNat, ih, List.replicate_succ]

/-! ## Bytes -/

/-- The bits of a byte buffer. -/
def ofBytes (bytes : List UInt8) : List Bool := bytes.flatMap fun b => ofNat 8 b.toNat

/-- The bytes of a bit list; bits after the last whole byte are dropped. -/
def toBytes : List Bool → List UInt8
  | b0 :: b1 :: b2 :: b3 :: b4 :: b5 :: b6 :: b7 :: bs =>
      UInt8.ofNat (toNat [b0, b1, b2, b3, b4, b5, b6, b7]) :: toBytes bs
  | _ => []

@[simp] theorem ofBytes_nil : ofBytes [] = [] := rfl

@[simp] theorem ofBytes_cons (b : UInt8) (bytes : List UInt8) :
    ofBytes (b :: bytes) = ofNat 8 b.toNat ++ ofBytes bytes := rfl

@[simp] theorem ofBytes_append (xs ys : List UInt8) :
    ofBytes (xs ++ ys) = ofBytes xs ++ ofBytes ys := by
  simp [ofBytes]

/-- A byte is eight bits. -/
@[simp] theorem length_ofBytes (bytes : List UInt8) :
    (ofBytes bytes).length = 8 * bytes.length := by
  induction bytes with
  | nil => rfl
  | cons b bytes ih =>
      rw [ofBytes_cons, List.length_append, ih, length_ofNat, List.length_cons]; omega

/-- Eight bits in front of a bit list are its first byte. -/
theorem toBytes_append_of_length_eq_eight {xs : List Bool} (h : xs.length = 8) (ys : List Bool) :
    toBytes (xs ++ ys) = UInt8.ofNat (toNat xs) :: toBytes ys := by
  match xs, h with
  | [_, _, _, _, _, _, _, _], _ => rfl

@[simp] theorem toBytes_nil : toBytes [] = [] := rfl

/-- The first eight bits are the first byte. -/
@[simp] theorem toBytes_ofNat_eight_append (n : Nat) (ys : List Bool) :
    toBytes (ofNat 8 n ++ ys) = UInt8.ofNat n :: toBytes ys := by
  rw [toBytes_append_of_length_eq_eight (length_ofNat 8 n), toNat_ofNat_mod]
  congr 1
  exact UInt8.toNat_inj.mp (by simp)

/-- A byte buffer is recovered from its bits, whatever follows them. -/
theorem toBytes_ofBytes_append (bytes : List UInt8) (ys : List Bool) :
    toBytes (ofBytes bytes ++ ys) = bytes ++ toBytes ys := by
  induction bytes with
  | nil => simp
  | cons b bytes ih =>
      rw [ofBytes_cons, List.append_assoc, toBytes_ofNat_eight_append, ih]
      simp

/-- The bytes of the bits of some bytes are these bytes. -/
@[simp] theorem toBytes_ofBytes (bytes : List UInt8) : toBytes (ofBytes bytes) = bytes := by
  simpa using toBytes_ofBytes_append bytes []

/-- Whole bytes are recovered from their bits. -/
theorem ofBytes_toBytes {bs : List Bool} (h : 8 ∣ bs.length) : ofBytes (toBytes bs) = bs := by
  induction bs using toBytes.induct with
  | case1 b0 b1 b2 b3 b4 b5 b6 b7 bs ih =>
      have hlen : 8 ∣ bs.length := by simp only [List.length_cons] at h; omega
      have hlt : toNat [b0, b1, b2, b3, b4, b5, b6, b7] < 2 ^ 8 := toNat_lt _
      have hbyte : (UInt8.ofNat (toNat [b0, b1, b2, b3, b4, b5, b6, b7])).toNat =
          toNat [b0, b1, b2, b3, b4, b5, b6, b7] := by
        simpa using hlt
      rw [toBytes, ofBytes_cons, ih hlen, hbyte]
      exact congrArg (· ++ bs) (ofNat_toNat [b0, b1, b2, b3, b4, b5, b6, b7])
  | case2 bs hshort =>
      match bs, hshort, h with
      | [], _, _ => rfl
      | [_], _, h | [_, _], _, h | [_, _, _], _, h | [_, _, _, _], _, h | [_, _, _, _, _], _, h
      | [_, _, _, _, _, _], _, h | [_, _, _, _, _, _, _], _, h => simp at h
      | _ :: _ :: _ :: _ :: _ :: _ :: _ :: _ :: _, hshort, _ =>
          exact absurd rfl (hshort _ _ _ _ _ _ _ _ _)

/-- Whole bytes of bits are one byte each. -/
theorem length_toBytes {bs : List Bool} (h : 8 ∣ bs.length) :
    (toBytes bs).length = bs.length / 8 := by
  have hlen := length_ofBytes (toBytes bs)
  rw [ofBytes_toBytes h] at hlen
  omega

/-- The `k` bytes of `n`, least significant first. -/
def leBytes : (k n : Nat) → List UInt8
  | 0, _ => []
  | k + 1, n => UInt8.ofNat n :: leBytes k (n / 256)

/-- The bytes of a number are as many as asked for. -/
@[simp] theorem length_leBytes (k n : Nat) : (leBytes k n).length = k := by
  induction k generalizing n with
  | zero => rfl
  | succ k ih => simp [leBytes, ih]

/-- A field only depends on the low bits of the number. -/
theorem ofNat_mod (w n : Nat) : ofNat w (n % 2 ^ w) = ofNat w n := by
  have h := ofNat_toNat (ofNat w n)
  rwa [length_ofNat, toNat_ofNat_mod] at h

/-- A field of whole bytes is a little-endian byte sequence. -/
theorem ofBytes_leBytes (k n : Nat) : ofBytes (leBytes k n) = ofNat (8 * k) n := by
  induction k generalizing n with
  | zero => rfl
  | succ k ih =>
      have hbyte : (UInt8.ofNat n).toNat = n % 2 ^ 8 := by simp
      rw [leBytes, ofBytes_cons, ih, hbyte, ofNat_mod, Nat.mul_succ, Nat.add_comm, ofNat_add]
      rfl

/-- Numbers in range are told apart by their bytes. -/
theorem leBytes_inj {k m n : Nat} (hm : m < 2 ^ (8 * k)) (hn : n < 2 ^ (8 * k)) :
    leBytes k m = leBytes k n ↔ m = n := by
  refine ⟨fun h => ?_, fun h => h ▸ rfl⟩
  have hbits := congrArg (toNat ∘ ofBytes) h
  simp only [Function.comp_apply, ofBytes_leBytes] at hbits
  rwa [toNat_ofNat hm, toNat_ofNat hn] at hbits

/-- Every byte sequence is little-endian for some number. -/
theorem exists_leBytes (bytes : List UInt8) :
    ∃ n < 2 ^ (8 * bytes.length), bytes = leBytes bytes.length n := by
  refine ⟨toNat (ofBytes bytes), ?_, ?_⟩
  · simpa using toNat_lt (ofBytes bytes)
  · have hbits := ofBytes_leBytes bytes.length (toNat (ofBytes bytes))
    rw [← length_ofBytes, ofNat_toNat] at hbits
    rw [← toBytes_ofBytes (leBytes _ _), hbits, toBytes_ofBytes]

/-- The number in the first `k` bytes, least significant first, and the bytes behind them. -/
def takeLe (k : Nat) (bytes : List UInt8) : Option (Nat × List UInt8) :=
  if k ≤ bytes.length then some (toNat (ofBytes (bytes.take k)), bytes.drop k) else none

/-- A number that was put in front is taken off again. -/
theorem takeLe_leBytes {k n : Nat} (h : n < 2 ^ (8 * k)) (rest : List UInt8) :
    takeLe k (leBytes k n ++ rest) = some (n, rest) := by
  rw [takeLe, if_pos (by simp), List.take_left' (length_leBytes k n),
    List.drop_left' (length_leBytes k n), ofBytes_leBytes, toNat_ofNat h]

/-- A number can be taken off the front exactly if its bytes are there. -/
theorem takeLe_eq_some_iff {k n : Nat} {bytes rest : List UInt8} :
    takeLe k bytes = some (n, rest) ↔ n < 2 ^ (8 * k) ∧ bytes = leBytes k n ++ rest := by
  refine ⟨fun h => ?_, fun ⟨hn, heq⟩ => heq ▸ takeLe_leBytes hn rest⟩
  unfold takeLe at h
  split at h
  case isFalse => cases h
  case isTrue hle =>
    obtain ⟨m, hm, heq⟩ := exists_leBytes (bytes.take k)
    rw [List.length_take_of_le hle] at hm heq
    obtain ⟨rfl, rfl⟩ := Prod.mk.inj (Option.some.inj h)
    rw [heq, ofBytes_leBytes, toNat_ofNat hm, ← heq, List.take_append_drop]
    exact ⟨hm, rfl⟩

/-- Only too few bytes have no number in front. -/
theorem takeLe_eq_none_iff {k : Nat} {bytes : List UInt8} :
    takeLe k bytes = none ↔ bytes.length < k := by
  unfold takeLe
  split <;> simp <;> omega

/-! ## Padding to a byte boundary -/

/-- Number of zero bits that pad `n` bits to whole bytes. -/
def padding (n : Nat) : Nat := (8 - n % 8) % 8

/-- Pad with zero bits to the next byte boundary. -/
def align (bs : List Bool) : List Bool := bs ++ List.replicate (padding bs.length) false

/-- Padding adds the bits that are missing. -/
theorem length_align (bs : List Bool) : (align bs).length = bs.length + padding bs.length := by
  simp [align]

/-- Padded bits are whole bytes. -/
theorem dvd_length_align (bs : List Bool) : 8 ∣ (align bs).length := by
  rw [length_align, padding]; omega

/-- Padding after whole bytes only depends on what follows them. -/
theorem align_append {xs : List Bool} (h : 8 ∣ xs.length) (ys : List Bool) :
    align (xs ++ ys) = xs ++ align ys := by
  have hpad : padding (xs.length + ys.length) = padding ys.length := by
    unfold padding; omega
  rw [align, align, List.length_append, hpad, List.append_assoc]

end BitList
