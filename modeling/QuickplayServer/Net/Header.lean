import QuickplayServer.Net.ReadFrame

/-!
# QuickplayServer.Net.Header

A packet's header apart from the channel that reads it.

The fields of a header, and whether they can be read, depend on the packet
alone (`Header.read`); the channel only decides on the challenge
(`readHeaderFields_eq`) and then on the sequence number (`acceptSequence`).
-/

namespace QuickplayServer

/-- The fields of a header. -/
structure Header where
  sequence : Nat
  sequenceAck : Nat
  flags : PacketFlags
  reliableState : Nat
  nChoked : Nat
  /-- `none` without `PACKET_FLAG_CHALLENGE`. -/
  challenge : Option Nat
  deriving DecidableEq, Repr

namespace Header

variable [BitstreamIo] [Crc]

/-- Reads the fields and checks the checksum. -/
def read (reader : BitReader) (packet : List UInt8) : Result (Header × BitReader) := do
  let (sequence, reader) ← reader.readIn 32
  let (sequenceAck, reader) ← reader.readIn 32
  let (bits, reader) ← reader.readIn 8
  let flags := PacketFlags.fromBitsTruncate bits
  let (expectedChecksum, reader) ← reader.readIn 16
  Outcome.assert (reader.positionInBits % 8 = 0)
  Outcome.assert (reader.positionInBits / 8 ≤ packet.length)
  let bytesToChecksum := packet.drop (reader.positionInBits / 8)
  let calculatedChecksum := calculateChecksum bytesToChecksum
  if calculatedChecksum ≠ expectedChecksum then
    .err (.checksumMismatch calculatedChecksum expectedChecksum)
  else
    let (reliableState, reader) ← reader.readIn 8
    let (nChoked, reader) ← (
      if flags.contains PACKET_FLAG_CHOKED then reader.readIn 8
      else .ok (0, reader) : Result (Nat × BitReader))
    if flags.contains PACKET_FLAG_CHALLENGE then
      let (challenge, reader) ← reader.readIn 32
      .ok ({ sequence, sequenceAck, flags, reliableState, nChoked, challenge := some challenge },
        reader)
    else
      .ok ({ sequence, sequenceAck, flags, reliableState, nChoked, challenge := none }, reader)

/-- The channel does not mind the challenge, or that there is none. -/
def Admitted (header : Header) (channel : NetChannel) : Prop :=
  match header.challenge with
  | some challenge => challenge = channel.challenge.toNat
  | none => channel.hasSeenChallenge = false

instance : (header : Header) → (channel : NetChannel) → Decidable (header.Admitted channel)
  | ⟨_, _, _, _, _, some challenge⟩, channel =>
      inferInstanceAs (Decidable (challenge = channel.challenge.toNat))
  | ⟨_, _, _, _, _, none⟩, channel =>
      inferInstanceAs (Decidable (channel.hasSeenChallenge = false))

/-- The error of a channel that minds. -/
def challengeError (header : Header) (channel : NetChannel) : Error :=
  match header.challenge with
  | some challenge => .challengeMismatch challenge channel.challenge.toNat
  | none => .challengeMissing

/-- The channel after it has seen the challenge, if there is one. -/
def seenBy (header : Header) (channel : NetChannel) : NetChannel :=
  { channel with hasSeenChallenge := channel.hasSeenChallenge || header.challenge.isSome }

/-- The fields that were read fit their widths. -/
theorem read_bounds {reader reader' : BitReader} {packet : List UInt8} {header : Header}
    (h : read reader packet = .ok (header, reader')) :
    header.sequence < 2 ^ 32 ∧ header.reliableState < 2 ^ 8 ∧ header.nChoked < 2 ^ 8 := by
  unfold read at h
  obtain ⟨⟨sequence, r₁⟩, hsequence, h⟩ := Outcome.bind_eq_ok.mp h
  obtain ⟨⟨sequenceAck, r₂⟩, -, h⟩ := Outcome.bind_eq_ok.mp h
  obtain ⟨⟨bits, r₃⟩, -, h⟩ := Outcome.bind_eq_ok.mp h
  obtain ⟨⟨expectedChecksum, r₄⟩, -, h⟩ := Outcome.bind_eq_ok.mp h
  obtain ⟨_, -, h⟩ := Outcome.bind_eq_ok.mp h
  obtain ⟨_, -, h⟩ := Outcome.bind_eq_ok.mp h
  dsimp only at h
  split at h
  · cases h
  · obtain ⟨⟨reliableState, r₅⟩, hreliable, h⟩ := Outcome.bind_eq_ok.mp h
    obtain ⟨⟨nChoked, r₆⟩, hchoked, h⟩ := Outcome.bind_eq_ok.mp h
    have hbound : nChoked < 2 ^ 8 := by
      split at hchoked
      · exact (BitReader.readIn_eq_ok.mp hchoked).1
      · cases hchoked
        decide
    have hsequence := (BitReader.readIn_eq_ok.mp hsequence).1
    have hreliable := (BitReader.readIn_eq_ok.mp hreliable).1
    dsimp only at h
    split at h
    · obtain ⟨⟨challenge, r₇⟩, -, h⟩ := Outcome.bind_eq_ok.mp h
      cases h
      exact ⟨hsequence, hreliable, hbound⟩
    · cases h
      exact ⟨hsequence, hreliable, hbound⟩

/-- A packet that is too short is an error. -/
theorem read_ne_panic (packet : List UInt8) :
    read { data := packet, pos := 0 } packet ≠ .panic := by
  have hlength := (BitReader.inBounds_start packet).pos_add_length_rest
  unfold read
  refine Outcome.bind_ne_panic (BitReader.readIn_ne_panic _ _) fun (sequence, r₁) h₁ => ?_
  obtain ⟨-, rfl, hr₁⟩ := BitReader.readIn_eq_ok.mp h₁
  refine Outcome.bind_ne_panic (BitReader.readIn_ne_panic _ _) fun (sequenceAck, r₂) h₂ => ?_
  obtain ⟨-, rfl, hr₂⟩ := BitReader.readIn_eq_ok.mp h₂
  refine Outcome.bind_ne_panic (BitReader.readIn_ne_panic _ _) fun (bits, r₃) h₃ => ?_
  obtain ⟨-, rfl, hr₃⟩ := BitReader.readIn_eq_ok.mp h₃
  refine Outcome.bind_ne_panic (BitReader.readIn_ne_panic _ _) fun (expectedChecksum, r₄) h₄ => ?_
  obtain ⟨-, rfl, hr₄⟩ := BitReader.readIn_eq_ok.mp h₄
  rw [hr₁, hr₂, hr₃, hr₄] at hlength
  simp only [List.length_append, BitList.length_ofNat] at hlength
  have hposition : ((((({ data := packet, pos := 0 } : BitReader).skip 32).skip 32).skip 8).skip
      16).positionInBits = 88 := BitReader.positionInBits_eq _
  refine Outcome.bind_ne_panic (Outcome.assert_ne_panic (by rw [hposition])) fun _ _ => ?_
  refine Outcome.bind_ne_panic (Outcome.assert_ne_panic (by omega)) fun _ _ => ?_
  dsimp only
  split
  · simp
  · refine Outcome.bind_ne_panic (BitReader.readIn_ne_panic _ _) fun (reliableState, r₅) _ => ?_
    refine Outcome.bind_ne_panic ?_ fun (nChoked, r₆) _ => ?_
    · split
      · exact BitReader.readIn_ne_panic _ _
      · simp
    · dsimp only
      split
      · exact Outcome.bind_ne_panic (BitReader.readIn_ne_panic _ _) fun _ _ => by simp
      · simp

end Header

/-! ## The challenge -/

namespace NetChannel

open Method (lift_bind_resume)

variable [BitstreamIo] [Crc]

/-- Where the challenge check is all that the channel has to say. -/
def checkChallenge (self : NetChannel) (header : Header) (reader : BitReader) :
    Outcome Error ((Nat × Nat × PacketFlags × Nat × Nat) × BitReader) × NetChannel :=
  if header.Admitted self then
    (.ok ((header.sequence, header.sequenceAck, header.flags, header.reliableState, header.nChoked),
      reader), header.seenBy self)
  else (.err (header.challengeError self), self)

omit [BitstreamIo] [Crc] in
theorem checkChallenge_of {self : NetChannel} {header : Header} (h : header.Admitted self)
    (reader : BitReader) :
    self.checkChallenge header reader = (.ok ((header.sequence, header.sequenceAck, header.flags,
      header.reliableState, header.nChoked), reader), header.seenBy self) := if_pos h

omit [BitstreamIo] [Crc] in
theorem checkChallenge_of_not {self : NetChannel} {header : Header} (h : ¬ header.Admitted self)
    (reader : BitReader) :
    self.checkChallenge header reader = (.err (header.challengeError self), self) := if_neg h

/-- The channel reads the fields, whatever it is, and then admits them. -/
theorem readHeaderFields_eq (reader : BitReader) (packet : List UInt8) (self : NetChannel) :
    readHeaderFields reader packet self =
      Method.resume (Header.read reader packet)
      (fun (header, reader) => self.checkChallenge header reader)
        self := by
  refine lift_bind_resume fun (sequence, reader) => ?_
  refine lift_bind_resume fun (sequenceAck, reader) => ?_
  refine lift_bind_resume fun (bits, reader) => ?_
  refine lift_bind_resume fun (expectedChecksum, reader) => ?_
  refine lift_bind_resume fun _ => ?_
  refine lift_bind_resume fun _ => ?_
  dsimp only
  split
  · rfl
  · refine lift_bind_resume fun (reliableState, reader) => ?_
    refine lift_bind_resume fun (nChoked, reader) => ?_
    dsimp only
    split
    · refine lift_bind_resume fun (challenge, reader) => ?_
      simp only [Method.get_bind, Method.resume_ok]
      split
      case isTrue hne =>
        rw [checkChallenge_of_not (by exact hne)]
        rfl
      case isFalse heq =>
        rw [checkChallenge_of (by exact not_not.mp heq), Header.seenBy, Option.isSome_some,
          Bool.or_true]
        rfl
    · simp only [Method.get_bind, Method.resume_ok]
      cases hseen : self.hasSeenChallenge with
      | true =>
          rw [checkChallenge_of_not (by exact fun h => Bool.noConfusion (hseen.symm.trans h))]
          rfl
      | false =>
          rw [checkChallenge_of (by exact hseen), Header.seenBy, Option.isSome_none, Bool.or_false]
          rfl

/-- The part of `read_header` after the drop count. -/
def acceptAck (sequence sequenceAck : Nat) (acked : BitVec 8) : Method NetChannel Error Unit := do
  updateOutgoingSubchannels sequenceAck acked
  modify fun self => { self with inSequenceNr := sequence, outSequenceNrAck := sequenceAck }
  popCompletedOutgoingTransfers

omit [BitstreamIo] [Crc] in
/-- A sequence number is stale, or it is too small for the choked packets, or
too large, or the subchannels look at the acknowledgement. -/
theorem acceptSequence_cases {sequence : Nat} (hsequence : sequence < 2 ^ 32)
    (sequenceAck reliableState nChoked : Nat) (self : NetChannel) :
    acceptSequence sequence sequenceAck reliableState nChoked self =
      if sequence ≤ self.inSequenceNr then
        (.err (.unexpectedSequence sequence self.inSequenceNr), self)
      else if sequence < self.inSequenceNr + nChoked + 1 then (.panic, self)
      else if self.configuration.server.maxPacketsDropped <
          sequence - (self.inSequenceNr + nChoked + 1) then
        (.err (.tooManyPacketsDropped (sequence - (self.inSequenceNr + nChoked + 1))
          self.configuration.server.maxPacketsDropped), self)
      else acceptAck sequence sequenceAck (BitVec.ofNat 8 reliableState) self := by
  unfold acceptSequence
  rw [Method.get_bind]
  split
  case isTrue => rfl
  case isFalse hfresh =>
    split
    case isTrue hchoked =>
      unfold Outcome.add32
      split
      case isFalse => rfl
      case isTrue =>
        rw [Method.lift_bind_ok]
        split
        case isFalse => rfl
        case isTrue =>
          rw [Method.lift_bind_ok, Outcome.checkedSub, if_neg (by omega), Method.lift_bind_panic]
    case isFalse hchoked =>
      rw [Outcome.add32_of_lt (by omega), Method.lift_bind_ok, Outcome.add32_of_lt (by omega),
        Method.lift_bind_ok, Outcome.checkedSub_of_le (by omega), Method.lift_bind_ok]
      split <;> rfl

/-- What becomes of a header whose fields were read. -/
def accept (self : NetChannel) (header : Header) (reader : BitReader) :
    Outcome Error (PacketFlags × BitReader) × NetChannel :=
  if header.Admitted self then
    (do acceptSequence header.sequence header.sequenceAck header.reliableState header.nChoked
        pure (header.flags, reader) : Method NetChannel Error _) (header.seenBy self)
  else (.err (header.challengeError self), self)

theorem readHeader_eq (reader : BitReader) (packet : List UInt8) (self : NetChannel) :
    readHeader reader packet self =
      Method.resume (Header.read reader packet) (fun (header, reader) => self.accept header reader)
        self := by
  unfold readHeader
  rw [Method.bind_apply, readHeaderFields_eq]
  cases Header.read reader packet with
  | err e => rfl
  | panic => rfl
  | ok x =>
      obtain ⟨header, reader⟩ := x
      rw [Method.resume_ok, Method.resume_ok]
      unfold accept
      dsimp only
      by_cases h : header.Admitted self
      · rw [checkChallenge_of h, if_pos h]
      · rw [checkChallenge_of_not h, if_neg h]

/-- A header that is accepted was read and admitted, and its numbers were accepted. -/
theorem readHeader_eq_ok {reader reader' : BitReader} {packet : List UInt8} {flags : PacketFlags}
    {self later : NetChannel} (h : readHeader reader packet self = (.ok (flags, reader'), later)) :
    ∃ header, Header.read reader packet = .ok (header, reader') ∧ header.flags = flags ∧
      header.Admitted self ∧
      acceptSequence header.sequence header.sequenceAck header.reliableState header.nChoked
        (header.seenBy self) = (.ok (), later) := by
  rw [readHeader_eq] at h
  cases hread : Header.read reader packet with
  | err e =>
      rw [hread] at h
      cases h
  | panic =>
      rw [hread] at h
      cases h
  | ok x =>
      obtain ⟨header, r⟩ := x
      rw [hread, Method.resume_ok] at h
      unfold accept at h
      dsimp only at h
      split at h
      case isFalse => cases h
      case isTrue hadmitted =>
        obtain ⟨_, s, haccept, hpure⟩ := Method.bind_eq_ok.mp h
        cases hpure
        exact ⟨header, rfl, rfl, hadmitted, haccept⟩

open Method (Keeps) in
/-- What the challenge and an accepted header keep, a header keeps. -/
theorem readHeader_keeps {I : NetChannel → Prop}
    (hseen : ∀ (self : NetChannel) (header : Header), I self → I (header.seenBy self))
    (haccept : ∀ sequence sequenceAck reliableState nChoked, sequence < 2 ^ 32 →
      Keeps I (acceptSequence sequence sequenceAck reliableState nChoked))
    (reader : BitReader) (packet : List UInt8) : Keeps I (readHeader reader packet) := by
  intro self h
  rw [readHeader_eq]
  cases hread : Header.read reader packet with
  | err e => exact h
  | panic => trivial
  | ok x =>
      obtain ⟨header, reader⟩ := x
      rw [Method.resume_ok]
      unfold accept
      dsimp only
      by_cases hadmitted : header.Admitted self
      · rw [if_pos hadmitted]
        have hsequence := (Header.read_bounds hread).1
        exact Keeps.bind (haccept _ _ _ _ hsequence) (fun _ => Keeps.pure _) _ (hseen self header h)
      · rw [if_neg hadmitted]
        exact h

end NetChannel

/-! ## Behind the header -/

namespace NetChannel

variable [BitstreamIo]

open Method (Triple Keeps)

/-- `later` is `channel` but for what it has received. -/
def UpToReceived (channel later : NetChannel) : Prop :=
  later = { channel with
    incomingReliableData := later.incomingReliableData
    inReliableState := later.inReliableState }

omit [BitstreamIo] in
theorem UpToIncoming.upToReceived {self self' : NetChannel} (h : UpToIncoming self self') :
    UpToReceived self self' := by
  unfold UpToReceived
  rw [h]

omit [BitstreamIo] in
theorem onlyIncoming_keeps {I : NetChannel → Prop}
    (hI : ∀ {self later}, UpToReceived self later → I self → I later) {α : Type}
    {m : Method NetChannel Error α} (hm : ∀ self, OnlyIncoming self m) : Keeps I m := by
  intro self h
  exact Triple.consequence (hm self) (fun s hs => hs) (fun _ _ hs => hI hs.upToReceived h)
    (fun _ _ hs => hI hs.1.upToReceived h) self rfl

/-- The part of `read_packet` behind the header. -/
def readBody (packet : List UInt8) (x : PacketFlags × BitReader) :
    Method NetChannel Error (List Message) :=
  if x.1.contains PACKET_FLAG_RELIABLE then do
    let (messages, reader) ← readReliableSection x.2
    readMessages reader packet.length messages
  else
    readMessages x.2 packet.length []

theorem readPacket_eq_bind [Crc] (packet : List UInt8) :
    readPacket packet = readHeader { data := packet, pos := 0 } packet >>= readBody packet := rfl

theorem readBody_keeps {I : NetChannel → Prop}
    (hI : ∀ {self later}, UpToReceived self later → I self → I later) (packet : List UInt8)
    (x : PacketFlags × BitReader) : Keeps I (readBody packet x) := by
  refine Keeps.ite (Keeps.bind (Keeps.bind (Keeps.lift _) fun _ => ?_) fun _ => Keeps.lift _)
    (Keeps.lift _)
  refine Keeps.bind (onlyIncoming_keeps hI fun self => readStreams_onlyIncoming self _ _)
    fun _ => ?_
  refine Keeps.bind (Keeps.modify fun _ => hI rfl) fun _ => ?_
  exact Keeps.bind (onlyIncoming_keeps hI fun self => readAllReliableMessages_onlyIncoming self _ _)
    fun _ => Keeps.pure _

/-- What the header keeps and what does not depend on what was received, a
packet keeps. -/
theorem readPacket_keeps [Crc] {I : NetChannel → Prop}
    (hI : ∀ {self later}, UpToReceived self later → I self → I later) {packet : List UInt8}
    (hheader : Keeps I (readHeader { data := packet, pos := 0 } packet)) :
    Keeps I (readPacket packet) :=
  Keeps.bind hheader fun x => readBody_keeps hI packet x

/-- A packet leaves what its header left, but for what was received. -/
theorem readPacket_upToReceived [Crc] {self : NetChannel} {packet : List UInt8}
    (hpanic : (readPacket packet self).1 ≠ .panic) :
    UpToReceived (readHeader { data := packet, pos := 0 } packet self).2
      (readPacket packet self).2 := by
  rw [readPacket_eq_bind] at hpanic ⊢
  cases hheader : readHeader { data := packet, pos := 0 } packet self with
  | mk o mid =>
      cases o with
      | err e =>
          rw [Method.bind_err hheader]
          rfl
      | panic =>
          rw [Method.bind_panic hheader] at hpanic
          exact absurd rfl hpanic
      | ok x =>
          rw [Method.bind_ok hheader] at hpanic ⊢
          have hbody : Keeps (UpToReceived mid) (readBody packet x) := by
            refine readBody_keeps (fun hlater h => ?_) packet x
            unfold UpToReceived at h hlater ⊢
            rw [hlater, h]
          exact hbody.run rfl hpanic

end NetChannel

end QuickplayServer
