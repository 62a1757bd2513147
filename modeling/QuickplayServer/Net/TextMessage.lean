import QuickplayServer.Net.Message

/-!
# QuickplayServer.Net.TextMessage

What the reader of texts consumes (`src/io_util.rs`, `src/net/message.rs`).

`readString_sound` is the mirror of `reads_readString`: whenever a text is
read, the consumed bits are its bytes, with the terminator behind them unless
the reader stopped at its limit.  Stopping there, it leaves the terminator in
front of the next message, so a message is written back as it was read exactly
when its terminator is within the limit (`write_read_iff`).
-/

namespace QuickplayServer

/-! ## Texts -/

theorem asBytes_of_fromUtf8 {data : List UInt8} {s : String} (h : fromUtf8 data = .ok s) :
    asBytes s = data := by
  rw [fromUtf8, Outcome.ofOption_eq_ok] at h
  unfold String.fromUTF8? at h
  split at h
  · cases h
    rfl
  · cases h

/-- A NUL byte is among the first `limit` bytes. -/
def Terminated (limit : Nat) (bits : List Bool) : Prop :=
  ∃ i < limit, (bits.drop (8 * i)).take 8 = BitList.ofNat 8 0

theorem terminated_append {limit : Nat} {bs : List UInt8} (h : bs.length < limit) (tl : List Bool) :
    Terminated limit (BitList.ofBytes bs ++ (BitList.ofNat 8 0 ++ tl)) := by
  refine ⟨bs.length, h, ?_⟩
  rw [List.drop_left' (BitList.length_ofBytes bs), List.take_left' (BitList.length_ofNat 8 0)]

theorem not_terminated_append {limit : Nat} {bs : List UInt8} (hnul : (0 : UInt8) ∉ bs)
    (h : limit ≤ bs.length) (tl : List Bool) : ¬ Terminated limit (BitList.ofBytes bs ++ tl) := by
  rintro ⟨i, hi, hzero⟩
  have hlt : i < bs.length := Nat.lt_of_lt_of_le hi h
  have hsplit : BitList.ofBytes bs ++ tl = BitList.ofBytes (bs.take i) ++
      (BitList.ofNat 8 bs[i].toNat ++ (BitList.ofBytes (bs.drop (i + 1)) ++ tl)) := by
    rw [← List.append_assoc (BitList.ofNat _ _), ← BitList.ofBytes_cons, ← List.append_assoc,
      ← BitList.ofBytes_append, List.getElem_cons_drop, List.take_append_drop]
  have hlen : (BitList.ofBytes (bs.take i)).length = 8 * i := by
    rw [BitList.length_ofBytes, List.length_take, Nat.min_eq_left hlt.le]
  rw [hsplit, List.drop_left' hlen, List.take_left' (BitList.length_ofNat 8 _)] at hzero
  have hbyte := congrArg BitList.toNat hzero
  rw [BitList.toNat_ofNat bs[i].toNat_lt, BitList.toNat_ofNat (by decide)] at hbyte
  have hbyte : bs[i] = 0 := UInt8.toNat_inj.mp hbyte
  exact hnul (hbyte ▸ List.getElem_mem hlt)

section

variable [BitstreamIo]

/-- What the loop takes: the bytes up to a terminator, or as many as the limit allows. -/
theorem readStringLoop_sound {maxLen fuel charsRead : Nat} {data data' : List UInt8}
    {r r' : BitReader} (hlt : charsRead < maxLen)
    (h : readStringLoop maxLen fuel data charsRead r = .ok (data', r')) :
    ∃ bs, data' = data ++ bs ∧ (0 : UInt8) ∉ bs ∧
      (charsRead + bs.length < maxLen ∧
        r.rest = BitList.ofBytes bs ++ (BitList.ofNat 8 0 ++ r'.rest) ∧
          r' = r.skip (8 * (bs.length + 1)) ∨
        charsRead + bs.length = maxLen ∧ r.rest = BitList.ofBytes bs ++ r'.rest ∧
          r' = r.skip (8 * bs.length)) := by
  induction fuel generalizing charsRead data r with
  | zero => cases h
  | succ fuel ih =>
      rw [readStringLoop, Outcome.bind_eq_ok] at h
      obtain ⟨⟨val, r₁⟩, hread, h⟩ := h
      obtain ⟨hval, rfl, hrest⟩ := BitReader.readIn_eq_ok.mp hread
      dsimp only at h
      split at h
      case isTrue hzero =>
        subst hzero
        cases h
        exact ⟨[], by simp, by simp, .inl ⟨hlt, hrest, rfl⟩⟩
      case isFalse hne =>
        have hbyte : (UInt8.ofNat val).toNat = val := UInt8.toNat_ofNat_of_lt' hval
        have hnul : (0 : UInt8) ≠ UInt8.ofNat val := by
          intro heq
          rw [← heq] at hbyte
          exact hne hbyte.symm
        split at h
        case isTrue hfull =>
          cases h
          refine ⟨[UInt8.ofNat val], rfl, by simpa using hnul, .inr ⟨?_, ?_, rfl⟩⟩
          · rw [List.length_singleton]
            omega
          · rw [BitList.ofBytes_cons, BitList.ofBytes_nil, List.append_nil, hbyte, hrest]
        case isFalse hmore =>
          obtain ⟨bs, rfl, hmem, hcases⟩ := ih (Nat.not_le.mp hmore) h
          refine ⟨UInt8.ofNat val :: bs, by simp, by simp [hnul, hmem], hcases.imp ?_ ?_⟩
          all_goals
            rintro ⟨hlen, hrest', rfl⟩
            rw [List.length_cons, BitList.ofBytes_cons, hbyte, BitReader.skip_skip]
            refine ⟨by omega, ?_, by congr 1; omega⟩
            rw [hrest, hrest', List.append_assoc, BitReader.skip_skip]

/-- A text that is read is its consumed bytes, with the terminator when they are below the limit. -/
theorem readString_sound {maxLen : Nat} {s : String} {r r' : BitReader} (hpos : 0 < maxLen)
    (h : readString maxLen r = .ok (s, r')) :
    (0 : UInt8) ∉ asBytes s ∧
      ((asBytes s).length < maxLen ∧ r.rest = stringBits s ++ r'.rest ∧
          r' = r.skip (stringBits s).length ∨
        (asBytes s).length = maxLen ∧ r.rest = BitList.ofBytes (asBytes s) ++ r'.rest ∧
          r' = r.skip (8 * (asBytes s).length)) := by
  rw [readString, Outcome.bind_eq_ok] at h
  obtain ⟨⟨data, r₁⟩, hloop, h⟩ := h
  obtain ⟨text, htext, h⟩ := Outcome.bind_eq_ok.mp h
  cases h
  obtain ⟨bs, rfl, hnul, hcases⟩ := readStringLoop_sound hpos hloop
  obtain rfl := asBytes_of_fromUtf8 htext
  rw [Nat.zero_add] at hcases
  refine ⟨hnul, hcases.imp ?_ id⟩
  rintro ⟨hlen, hrest, hskip⟩
  refine ⟨hlen, ?_, ?_⟩
  · rw [hrest, stringBits, List.append_assoc]
  · rw [hskip, length_stringBits]

/-- The loop stops at its limit without a terminator. -/
theorem reads_readStringLoop_full {maxLen fuel charsRead : Nat} {bs data : List UInt8}
    (hne : bs ≠ [])
    (hnul : (0 : UInt8) ∉ bs) (hlen : charsRead + bs.length = maxLen) (hfuel : bs.length ≤ fuel) :
    Reads (readStringLoop maxLen fuel data charsRead) (BitList.ofBytes bs) (data ++ bs) := by
  induction bs generalizing fuel charsRead data with
  | nil => exact absurd rfl hne
  | cons b bs ih =>
      obtain ⟨fuel, rfl⟩ : ∃ f, fuel = f + 1 := ⟨fuel - 1, by simp at hfuel; omega⟩
      simp only [List.mem_cons, not_or] at hnul
      simp only [List.length_cons] at hlen hfuel
      intro r tl hr
      rw [BitList.ofBytes_cons, List.append_assoc] at hr
      have hread := Reads.readIn (ε := Error) b.toNat_lt r _ hr
      have hb : b.toNat ≠ 0 := fun h => hnul.1 (UInt8.toNat_inj.mp h.symm)
      simp only [readStringLoop, hread, Outcome.ok_bind, hb, if_false, UInt8.ofNat_toNat, ge_iff_le]
      by_cases hlast : bs = []
      · subst hlast
        rw [List.length_nil] at hlen
        rw [if_pos (by omega)]
        simp
      · have hmore : ¬ maxLen ≤ charsRead + 1 := by
          have hpos := List.length_pos_iff.mpr hlast
          omega
        have hbs : Reads (readStringLoop maxLen fuel (data ++ [b]) (charsRead + 1)) _ _ :=
          ih hlast hnul.2 (by omega) (by omega)
        have hloop := hbs _ tl (BitReader.rest_skip_of_append hr)
        rw [if_neg hmore, hloop, BitReader.skip_skip, BitList.ofBytes_cons, List.length_append,
          List.append_assoc, List.singleton_append]

/-- A text as long as the limit is read without its terminator. -/
theorem reads_readString_full {maxLen : Nat} {s : String} (hpos : 0 < maxLen)
    (hnul : (0 : UInt8) ∉ asBytes s) (hlen : (asBytes s).length = maxLen) :
    Reads (readString maxLen) (BitList.ofBytes (asBytes s)) s := by
  intro r tl hr
  have hne : asBytes s ≠ [] := List.length_pos_iff.mp (hlen ▸ hpos)
  have hloop : readStringLoop maxLen (maxLen + 1) [] 0 r = _ :=
    reads_readStringLoop_full hne hnul (by omega) (by omega) r tl hr
  rw [List.nil_append] at hloop
  simp [readString, hloop]

end

namespace Message

/-! ## Messages -/

section

variable [BitstreamIo]

/-- The message types with a text, and the limits of their texts. -/
def textLimit : (messageType : Nat) → Option Nat
  | MESSAGE_TYPE_DISCONNECT => some 1024
  | MESSAGE_TYPE_PRINT => some 2048
  | _ => none

/-- A message with a text is read as its text is. -/
theorem read_text {messageType limit : Nat} {r r' : BitReader} {message : Message}
    (hlimit : textLimit messageType = some limit) (h : read r messageType = .ok (message, r')) :
    ∃ text, message.content = some (messageType, text) ∧ readString limit r = .ok (text, r') ∧
      0 < limit := by
  unfold textLimit at hlimit
  split at hlimit
  case h_1 =>
    cases hlimit
    obtain ⟨⟨text, r₁⟩, hread, h⟩ := Outcome.bind_eq_ok.mp ((read_disconnect r).symm.trans h)
    cases h
    exact ⟨text, rfl, hread, by decide⟩
  case h_2 =>
    cases hlimit
    obtain ⟨⟨text, r₁⟩, hread, h⟩ := Outcome.bind_eq_ok.mp ((read_print r).symm.trans h)
    cases h
    exact ⟨text, rfl, hread, by decide⟩
  case h_3 => cases hlimit

/-- The bits that `Print` and `Disconnect` messages are read from are those
they are written in exactly when the text's terminator is within the limit. -/
theorem write_read_iff {r r₁ r' : BitReader} {messageType limit : Nat} {message : Message}
    (htype : r.readIn NETMSG_TYPE_BITS = (.ok (messageType, r₁) : Result _))
    (hlimit : textLimit messageType = some limit)
    (hread : read r₁ messageType = .ok (message, r')) :
    (∀ w, message.write w = .ok ⟨w.bits ++ r.rest.take (r'.pos - r.pos)⟩) ↔
      Terminated limit r₁.rest := by
  obtain ⟨-, rfl, hrest⟩ := BitReader.readIn_eq_ok.mp htype
  obtain ⟨text, hcontent, htext, hpos⟩ := read_text hlimit hread
  have hwritable : message.Writable := by rw [Writable, hcontent, Option.isSome_some]
  have hbits : message.bits = BitList.ofNat NETMSG_TYPE_BITS messageType ++ stringBits text := by
    rw [bits, hcontent]
  obtain ⟨hnul, ⟨hlen, hrest₁, hskip⟩ | ⟨hlen, hrest₁, hskip⟩⟩ := readString_sound hpos htext
  · -- the terminator was read, and so was everything that is written
    have hconsumed : r.rest.take (r'.pos - r.pos) = message.bits := by
      have hcount : r'.pos - r.pos = message.bits.length := by
        rw [hskip, hbits, List.length_append, BitList.length_ofNat, BitReader.skip_pos,
          BitReader.skip_pos]
        omega
      rw [hrest, hrest₁, ← List.append_assoc, ← hbits, List.take_left' hcount.symm]
    have hterminated : Terminated limit (r.skip NETMSG_TYPE_BITS).rest := by
      rw [hrest₁, stringBits, List.append_assoc]
      exact terminated_append hlen _
    exact ⟨fun _ => hterminated, fun _ w => by rw [write_eq hwritable, hconsumed]⟩
  · -- the reader stopped at its limit, a byte short of what is written
    have hshort : ¬ Terminated limit (r.skip NETMSG_TYPE_BITS).rest := by
      rw [hrest₁]
      exact not_terminated_append hnul hlen.ge _
    refine ⟨fun h => ?_, fun h => absurd h hshort⟩
    have hwrite := h ⟨[]⟩
    rw [write_eq hwritable, Outcome.ok.injEq, BitWriter.mk.injEq, hbits] at hwrite
    have hcount := congrArg List.length hwrite
    rw [hskip, BitReader.skip_pos, BitReader.skip_pos] at hcount
    simp only [List.nil_append, List.length_append, BitList.length_ofNat, length_stringBits,
      List.length_take] at hcount
    omega

/-- A disconnect with a reason as long as the limit is not written as it was read. -/
theorem readNext_disconnect_full {r : BitReader} {reason : String} {tl : List Bool}
    (hnul : (0 : UInt8) ∉ asBytes reason) (hlen : (asBytes reason).length = 1024)
    (hr : r.rest = BitList.ofNat NETMSG_TYPE_BITS MESSAGE_TYPE_DISCONNECT ++
      (BitList.ofBytes (asBytes reason) ++ tl)) :
    ∃ r', readNext r = .ok (disconnect ⟨reason⟩, r') ∧
      ∃ w, (disconnect ⟨reason⟩).write w ≠ .ok ⟨w.bits ++ r.rest.take (r'.pos - r.pos)⟩ := by
  have htype := Reads.readIn (ε := Error) (by decide) r _ hr
  have htext := reads_readString_full (by decide) hnul hlen _ _ (BitReader.rest_skip_of_append hr)
  rw [BitList.length_ofNat] at htype htext
  rw [BitReader.skip_skip, BitList.length_ofBytes, hlen] at htext
  have hread : readNext r = .ok (disconnect ⟨reason⟩, r.skip (NETMSG_TYPE_BITS + 8 * 1024)) := by
    simp only [readNext, htype, Outcome.ok_bind, read_disconnect, htext, Outcome.pure_eq]
  have hwritable : (disconnect ⟨reason⟩).Writable := rfl
  refine ⟨_, hread, ⟨[]⟩, fun hwrite => ?_⟩
  rw [write_eq hwritable, Outcome.ok.injEq, BitWriter.mk.injEq, List.nil_append,
    List.nil_append, BitReader.skip_pos, Nat.add_sub_cancel_left] at hwrite
  have hcount := congrArg List.length hwrite
  simp only [bits, content, List.length_append, BitList.length_ofNat, length_stringBits,
    List.length_take] at hcount
  omega

end

/-- A `Print` message behind two bits, followed by another byte. -/
theorem write_read_print :
    (∀ w, (print ⟨"x"⟩).write w =
        .ok ⟨w.bits ++ (⟨[28, 120, 0, 5], 2⟩ : BitReader).rest.take (24 - 2)⟩) ↔
      Terminated 2048 (⟨[28, 120, 0, 5], 8⟩ : BitReader).rest := by
  have htype : BitReader.readIn NETMSG_TYPE_BITS ⟨[28, 120, 0, 5], 2⟩ =
      (.ok (MESSAGE_TYPE_PRINT, ⟨[28, 120, 0, 5], 8⟩) : Result _) := by decide +kernel
  have hread : read ⟨[28, 120, 0, 5], 8⟩ MESSAGE_TYPE_PRINT =
      .ok (print ⟨"x"⟩, ⟨[28, 120, 0, 5], 24⟩) := by decide +kernel
  exact write_read_iff htype rfl hread

/-- The reason of a disconnect that is as long as the reader's limit. -/
def longReason : String := String.ofList (List.replicate 1024 'x')

/-- The bits of the disconnect with the long reason, behind two others. -/
def longDisconnect : BitReader := ⟨4 :: (List.replicate 1024 120 ++ [0]), 2⟩

/-- A reason of 1024 bytes is read up to its terminator, and written with it. -/
theorem write_read_longDisconnect :
    ∃ r', readNext longDisconnect = .ok (.disconnect ⟨longReason⟩, r') ∧
      ∃ w, (disconnect ⟨longReason⟩).write w ≠
        .ok ⟨w.bits ++ longDisconnect.rest.take (r'.pos - longDisconnect.pos)⟩ := by
  have hbytes : asBytes longReason = List.replicate 1024 120 := by decide +kernel
  have hrest : longDisconnect.rest = BitList.ofNat NETMSG_TYPE_BITS MESSAGE_TYPE_DISCONNECT ++
      (BitList.ofBytes (asBytes longReason) ++ BitList.ofNat 8 0) := by
    rw [hbytes, BitReader.rest, longDisconnect, BitList.ofBytes_cons, BitList.ofBytes_append]
    rfl
  have hnul : (0 : UInt8) ∉ asBytes longReason := by
    rw [hbytes, List.mem_replicate]
    decide
  exact readNext_disconnect_full hnul (by rw [hbytes, List.length_replicate]) hrest

end Message

end QuickplayServer
