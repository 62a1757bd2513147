import QuickplayServer.Net.Calls
import QuickplayServer.Net.DropCount
import QuickplayServer.Net.WriteFrame

/-!
# QuickplayServer.Net.Replay

Packets that have no influence.

The sequence number of the last accepted packet and whether the challenge was
seen only ever grow (`Grows`), so a channel refuses what it accepted before, and
what comes without the challenge once it has seen it, and such a refusal leaves
it as it is.  A run with packets of this kind inserted into it is therefore the
run without them.
-/

namespace QuickplayServer

namespace NetChannel

open Method (Triple Keeps)

/-! ## What only grows -/

/-- `later` has accepted what `channel` has, and seen the challenge if it has. -/
structure Grows (channel later : NetChannel) : Prop where
  challenge : later.challenge = channel.challenge
  inSequenceNr : channel.inSequenceNr ≤ later.inSequenceNr
  hasSeenChallenge : channel.hasSeenChallenge = true → later.hasSeenChallenge = true

/-- A channel is as far as it is. -/
theorem Grows.refl (self : NetChannel) : Grows self self := ⟨rfl, le_refl _, id⟩

/-- What goes on twice goes on. -/
theorem Grows.trans {a b c : NetChannel} (h : Grows a b) (h' : Grows b c) : Grows a c where
  challenge := h'.challenge.trans h.challenge
  inSequenceNr := h.inSequenceNr.trans h'.inSequenceNr
  hasSeenChallenge := h'.hasSeenChallenge ∘ h.hasSeenChallenge

/-- What changes the sending side only leaves the challenge and the number that was
received last. -/
theorem UpToSending.grows {channel later : NetChannel} (h : UpToSending channel later) :
    Grows channel later := by
  unfold UpToSending at h
  rw [h]
  exact ⟨rfl, le_refl _, id⟩

/-- The number that was received last is not on the sending side. -/
theorem UpToSending.inSequenceNr {channel later : NetChannel} (h : UpToSending channel later) :
    later.inSequenceNr = channel.inSequenceNr := by
  unfold UpToSending at h
  rw [h]

/-- What changes the incoming transfers only leaves the challenge and the numbers. -/
theorem UpToReceived.grows {channel later : NetChannel} (h : UpToReceived channel later) :
    Grows channel later := by
  unfold UpToReceived at h
  rw [h]
  exact ⟨rfl, le_refl _, id⟩

/-- A header can only make the challenge seen. -/
theorem seenBy_grows (self : NetChannel) (header : Header) : Grows self (header.seenBy self) :=
  ⟨rfl, le_refl _, fun h => by rw [Header.seenBy, h, Bool.true_or]⟩

/-- Only a new sequence number is accepted, and then it is the last one. -/
theorem acceptSequence_grows (first : NetChannel)
    (sequence sequenceAck reliableState nChoked : Nat) :
    Triple (Grows first) (acceptSequence sequence sequenceAck reliableState nChoked)
      (fun _ self => Grows first self ∧ self.inSequenceNr = sequence) fun _ => Grows first := by
  -- neither loop moves the sequence number
  have hsend : ∀ (holds : Nat → Prop) (self later : NetChannel), Sends self later →
      Grows first self ∧ holds self.inSequenceNr → Grows first later ∧ holds later.inSequenceNr :=
    fun _ _ _ hsends h =>
      ⟨h.1.trans hsends.upToSending.grows, hsends.upToSending.inSequenceNr ▸ h.2⟩
  have hbefore := (updateOutgoingSubchannels_sends sequenceAck (BitVec.ofNat 8 reliableState)).keeps
    (hsend (· < sequence))
  have hafter := popCompletedOutgoingTransfers_sends.keeps (hsend (· = sequence))
  refine Triple.get_bind fun self hself => ?_
  split
  case isTrue => exact Triple.fail fun s hs => hs ▸ hself
  case isFalse hfresh =>
    refine Triple.lift_bind (fun _ => ?_) fun _ s hs => hs ▸ hself
    refine Triple.lift_bind (fun _ => ?_) fun _ s hs => hs ▸ hself
    refine Triple.lift_bind (fun _ => ?_) fun _ s hs => hs ▸ hself
    split
    · exact Triple.fail fun s hs => hs ▸ hself
    · refine Triple.bind (Triple.consequence hbefore (fun s hs => ?_) (fun _ _ => id)
        fun _ _ hs => hs.1) fun _ => ?_
      · rw [hs]
        exact ⟨hself, by omega⟩
      · refine Triple.bind (Triple.modify fun s hs => ?_) fun _ =>
          Triple.consequence hafter (fun _ => id) (fun _ _ => id) fun _ _ hs => hs.1
        exact ⟨⟨hs.1.challenge, hs.1.inSequenceNr.trans hs.2.le, hs.1.hasSeenChallenge⟩, rfl⟩

section Packets

variable [BitstreamIo] [Crc]

/-- Reading a header never forgets the challenge and never lowers the number that
was received last. -/
theorem readHeader_grows (first : NetChannel) (reader : BitReader) (packet : List UInt8) :
    Keeps (Grows first) (readHeader reader packet) :=
  readHeader_keeps (fun _ header h => h.trans (seenBy_grows _ header))
    (fun _ _ _ _ _ => Triple.consequence (acceptSequence_grows first _ _ _ _) (fun _ => id)
      (fun _ _ hs => hs.1) fun _ _ => id) reader packet

/-- Reading a packet does neither. -/
theorem readPacket_grows (first : NetChannel) (packet : List UInt8) :
    Keeps (Grows first) (readPacket packet) :=
  readPacket_keeps (fun hlater h => h.trans hlater.grows) (readHeader_grows first _ packet)

/-- A header that was accepted is no later than the channel that accepted it. -/
theorem readHeader_known {reader reader' : BitReader} {packet : List UInt8} {flags : PacketFlags}
    {self later : NetChannel} (h : readHeader reader packet self = (.ok (flags, reader'), later)) :
    ∃ header, Header.read reader packet = .ok (header, reader') ∧
      header.sequence ≤ later.inSequenceNr ∧
      (header.challenge.isSome → later.hasSeenChallenge = true) := by
  obtain ⟨header, hread, -, -, haccept⟩ := readHeader_eq_ok h
  obtain ⟨hgrows, hsequence⟩ := (acceptSequence_grows (header.seenBy self) _ _ _ _).of_ok
    (Grows.refl _) haccept
  refine ⟨header, hread, hsequence.ge, fun hchallenge => hgrows.hasSeenChallenge ?_⟩
  rw [Header.seenBy, hchallenge, Bool.or_true]

/-- A header that carries the challenge shows it, even if it is not accepted. -/
theorem readHeader_seen {reader reader' : BitReader} {packet : List UInt8} {header : Header}
    {self : NetChannel} (hread : Header.read reader packet = .ok (header, reader'))
    (hchallenge : header.challenge = some self.challenge.toNat)
    (hpanic : (readHeader reader packet self).1 ≠ .panic) :
    (readHeader reader packet self).2.hasSeenChallenge = true := by
  have hadmitted : header.Admitted self := by
    unfold Header.Admitted
    rw [hchallenge]
  have heq : readHeader reader packet self = (do
      acceptSequence header.sequence header.sequenceAck header.reliableState header.nChoked
      pure (header.flags, reader') : Method NetChannel Error _) (header.seenBy self) := by
    rw [readHeader_eq, hread, Method.resume_ok]
    exact if_pos hadmitted
  rw [heq] at hpanic ⊢
  have hgrows : Keeps (Grows (header.seenBy self)) (do
      acceptSequence header.sequence header.sequenceAck header.reliableState header.nChoked
      pure (header.flags, reader') : Method NetChannel Error _) :=
    Keeps.bind (Triple.consequence (acceptSequence_grows _ _ _ _ _) (fun _ => id)
      (fun _ _ hs => hs.1) fun _ _ => id) fun _ => Keeps.pure _
  refine (hgrows.run (Grows.refl _) hpanic).hasSeenChallenge ?_
  rw [Header.seenBy, hchallenge, Option.isSome_some, Bool.or_true]

/-! ## Packets that are refused and forgotten -/

/-- The header of the packet can be read and carries the challenge. -/
def CarriesChallenge (challenge : BitVec 32) (packet : List UInt8) : Prop :=
  ∃ header reader, Header.read { data := packet, pos := 0 } packet = .ok (header, reader) ∧
    header.challenge = some challenge.toNat

/-- The packet ends inside its header or its checksum does not match. -/
def Damaged (packet : List UInt8) : Prop :=
  ∃ e, (e = .io ∨ ∃ calculated expected, e = .checksumMismatch calculated expected) ∧
    Header.read { data := packet, pos := 0 } packet = .err e

/-- A channel refuses a header that it does not admit or that is not new, and
stays as it is. -/
theorem readHeader_of_refused {reader reader' : BitReader} {packet : List UInt8} {header : Header}
    {self : NetChannel} (hread : Header.read reader packet = .ok (header, reader'))
    (h : header.Admitted self →
      header.sequence ≤ self.inSequenceNr ∧ header.seenBy self = self) :
    ∃ e, readHeader reader packet self = (.err e, self) := by
  rw [readHeader_eq, hread, Method.resume_ok]
  unfold accept
  dsimp only
  by_cases hadmitted : header.Admitted self
  · obtain ⟨hstale, hseen⟩ := h hadmitted
    have hbounds := Header.read_bounds hread
    rw [if_pos hadmitted, Method.bind_apply, hseen, acceptSequence_cases hbounds.1, if_pos hstale]
    exact ⟨_, rfl⟩
  · rw [if_neg hadmitted]
    exact ⟨_, rfl⟩

/-- A packet whose header is refused without a trace is refused without a trace. -/
theorem readPacket_of_refused {packet : List UInt8} {self : NetChannel} {e : Error}
    (h : readHeader { data := packet, pos := 0 } packet self = (.err e, self)) :
    readPacket packet self = (.err e, self) := Method.bind_err h

/-! ## Runs with packets inserted -/

/-- What a call returned. -/
inductive Returned where
  | queued (x : Result Unit)
  | written (x : Result (List UInt8))
  | received (x : Result (List Message))

/-- The call panicked. -/
def Returned.isPanic : Returned → Bool
  | .queued x => x.isPanic
  | .written x => x.isPanic
  | .received x => x.isPanic

/-- What the call returns, and the channel that it leaves behind. -/
def Call.perform (self : NetChannel) : Call → Returned × NetChannel
  | .queueReliableMessages messages =>
    (NetChannel.queueReliableMessages messages self).map .queued id
  | .writePacket messages => (NetChannel.writePacket messages self).map .written id
  | .readPacket packet => (NetChannel.readPacket packet self).map .received id

/-- A call of the run, or a packet inserted into it. -/
inductive Event where
  | original (call : Call)
  | inserted (packet : List UInt8)

namespace Event

def isOriginal : Event → Bool
  | original _ => true
  | inserted _ => false

def call : Event → Call
  | original call => call
  | inserted packet => .readPacket packet

end Event

/-- What can be seen of an event: what was returned, and the channel after it. -/
structure Observation where
  event : Event
  returned : Returned
  channel : NetChannel

/-- Everything that can be seen of a run, which ends with its last event or a panic. -/
def observe (self : NetChannel) : (events : List Event) → List Observation
  | [] => []
  | event :: events =>
      let (returned, later) := event.call.perform self
      ⟨event, returned, later⟩ :: if returned.isPanic then [] else observe later events

/-- What a run remembers of the packets it has read. -/
structure Past where
  /-- `read_header` accepted the packet. -/
  accepted : List UInt8 → Prop
  /-- A packet carried the challenge. -/
  challenged : Prop

/-- Nothing was read. -/
def Past.start : Past := ⟨fun _ => False, False⟩

/-- What is remembered after a call in `self`. -/
def Past.after (past : Past) (self : NetChannel) : Call → Past
  | .readPacket packet =>
      { accepted := fun other => past.accepted other ∨
          other = packet ∧ ∃ x, (readHeader { data := packet, pos := 0 } packet self).1 = .ok x
        challenged := past.challenged ∨ CarriesChallenge self.challenge packet }
  | _ => past

/-- The packet was accepted before, it is damaged, or it comes without the
challenge after it has been seen. -/
def Insertable (past : Past) (self : NetChannel) (packet : List UInt8) : Prop :=
  past.accepted packet ∨ Damaged packet ∨ past.challenged ∧ ¬ CarriesChallenge self.challenge packet

/-- Every packet that is inserted is insertable where it is. -/
def Harmless (past : Past) (self : NetChannel) : (events : List Event) → Prop
  | [] => True
  | event :: events =>
      (∀ packet, event = .inserted packet → Insertable past self packet) ∧
        ((event.call.perform self).1.isPanic = false →
          Harmless (past.after self event.call) (event.call.perform self).2 events)

/-- The channel has not forgotten what it has read. -/
structure Remembers (past : Past) (channel : NetChannel) : Prop where
  accepted : ∀ packet, past.accepted packet → ∃ header reader,
    Header.read { data := packet, pos := 0 } packet = .ok (header, reader) ∧
      header.sequence ≤ channel.inSequenceNr ∧
      (header.challenge.isSome → channel.hasSeenChallenge = true)
  challenged : past.challenged → channel.hasSeenChallenge = true

/-- What the past says of a channel it says of a later one. -/
theorem Remembers.grows {past : Past} {channel later : NetChannel} (h : Remembers past channel)
    (hgrows : Grows channel later) : Remembers past later where
  accepted := by
    intro packet hpacket
    obtain ⟨header, reader, hread, hsequence, hseen⟩ := h.accepted packet hpacket
    exact ⟨header, reader, hread, hsequence.trans hgrows.inSequenceNr,
      fun hchallenge => hgrows.hasSeenChallenge (hseen hchallenge)⟩
  challenged hchallenged := hgrows.hasSeenChallenge (h.challenged hchallenged)

/-- A channel that remembers refuses what can be inserted, and stays as it is. -/
theorem Remembers.refuses {past : Past} {self : NetChannel} (h : Remembers past self)
    {packet : List UInt8} (hpacket : Insertable past self packet) :
    ∃ e, readPacket packet self = (.err e, self) := by
  obtain ⟨e, he⟩ : ∃ e, readHeader { data := packet, pos := 0 } packet self = (.err e, self) := by
    obtain haccepted | ⟨e, -, he⟩ | ⟨hchallenged, hcarries⟩ := hpacket
    · obtain ⟨header, reader, hread, hsequence, hseen⟩ := h.accepted packet haccepted
      refine readHeader_of_refused hread fun _ => ⟨hsequence, ?_⟩
      cases hchallenge : header.challenge with
      | none => rw [Header.seenBy, hchallenge, Option.isSome_none, Bool.or_false]
      | some challenge =>
          rw [Header.seenBy, hseen (hchallenge ▸ rfl), Bool.true_or, ← hseen (hchallenge ▸ rfl)]
    · rw [readHeader_eq, he]
      exact ⟨e, rfl⟩
    · cases hread : Header.read { data := packet, pos := 0 } packet with
      | err e =>
          rw [readHeader_eq, hread]
          exact ⟨e, rfl⟩
      | panic => exact absurd hread (Header.read_ne_panic packet)
      | ok x =>
          obtain ⟨header, reader⟩ := x
          refine readHeader_of_refused hread fun hadmitted => absurd hadmitted ?_
          have hseen := h.challenged hchallenged
          cases hchallenge : header.challenge with
          | none => simp [Header.Admitted, hchallenge, hseen]
          | some challenge =>
              simp only [Header.Admitted, hchallenge]
              rintro rfl
              exact hcarries ⟨header, reader, hread, hchallenge⟩
  exact ⟨e, readPacket_of_refused he⟩

/-- Each call keeps what the past says of the channel: the packets that were
accepted have numbers that have passed. -/
theorem Remembers.after {past : Past} {self : NetChannel} (h : Remembers past self) {call : Call}
    (hpanic : (call.perform self).1.isPanic = false) :
    Remembers (past.after self call) (call.perform self).2 := by
  cases call with
  | queueReliableMessages messages =>
      exact h.grows (queueReliableMessages_upToSending messages self).grows
  | writePacket messages => exact h.grows (writePacket_sends messages self).upToSending.grows
  | readPacket packet =>
      have hpanic : (readPacket packet self).1 ≠ .panic := Outcome.isPanic_eq_false.mp hpanic
      have hgrows : Grows self (readPacket packet self).2 :=
        (readPacket_grows self packet).run (Grows.refl self) hpanic
      have hold := h.grows hgrows
      have hbody := (readPacket_upToReceived hpanic).grows
      refine ⟨fun other hother => ?_, fun hchallenged => ?_⟩
      · obtain hother | ⟨rfl, ⟨flags, reader⟩, hok⟩ := hother
        · exact hold.accepted other hother
        · obtain ⟨header, hread, hsequence, hseen⟩ := readHeader_known (Prod.ext hok rfl)
          exact ⟨header, reader, hread, hsequence.trans hbody.inSequenceNr,
            fun hchallenge => hbody.hasSeenChallenge (hseen hchallenge)⟩
      · obtain hchallenged | ⟨header, reader, hread, hchallenge⟩ := hchallenged
        · exact hold.challenged hchallenged
        · exact hbody.hasSeenChallenge (readHeader_seen hread hchallenge fun h =>
            hpanic (by rw [readPacket_eq_bind, Method.bind_panic (Prod.ext h rfl)]))

/-- Whatever is inserted is refused, and all that can be seen of the rest of
the run is what can be seen without it. -/
theorem observe_of_harmless {past : Past} {self : NetChannel} {events : List Event}
    (h : Remembers past self) (hharmless : Harmless past self events) :
    (∀ seen ∈ observe self events, seen.event.isOriginal = false →
        ∃ e, seen.returned = .received (.err e)) ∧
      (observe self events).filter (·.event.isOriginal) =
        observe self (events.filter Event.isOriginal) := by
  induction events generalizing past self with
  | nil => exact ⟨fun _ hseen => absurd hseen List.not_mem_nil, rfl⟩
  | cons event events ih =>
      obtain ⟨hinsertable, hrest⟩ := hharmless
      cases event with
      | inserted packet =>
          obtain ⟨e, he⟩ := h.refuses (hinsertable packet rfl)
          have hperform : (Event.inserted packet).call.perform self = (.received (.err e), self) :=
            congrArg (Prod.map Returned.received id) he
          have hpanic : ((Event.inserted packet).call.perform self).1.isPanic = false := by
            rw [hperform]
            rfl
          have hafter := h.after hpanic
          have hrest := hrest hpanic
          rw [hperform] at hafter hrest
          obtain ⟨hrefused, hfilter⟩ := ih hafter hrest
          have hobserve : observe self (.inserted packet :: events) =
              ⟨.inserted packet, .received (.err e), self⟩ :: observe self events := by
            rw [observe, hperform]
            rfl
          rw [hobserve]
          refine ⟨?_, ?_⟩
          · intro seen hseen horiginal
            obtain rfl | hseen := List.mem_cons.mp hseen
            · exact ⟨e, rfl⟩
            · exact hrefused seen hseen horiginal
          · rw [List.filter_cons_of_neg (by simp [Event.isOriginal]),
              List.filter_cons_of_neg (by simp [Event.isOriginal]), hfilter]
      | original call =>
          rw [List.filter_cons_of_pos (by rfl)]
          simp only [observe]
          cases hpanic : ((Event.original call).call.perform self).1.isPanic with
          | true => simp [Event.isOriginal]
          | false =>
              obtain ⟨hrefused, hfilter⟩ := ih (h.after hpanic) (hrest hpanic)
              refine ⟨?_, ?_⟩
              · intro seen hseen horiginal
                obtain rfl | hseen := List.mem_cons.mp hseen
                · cases horiginal
                · exact hrefused seen (by simpa using hseen) horiginal
              · rw [List.filter_cons_of_pos (by rfl)]
                simp [hfilter]

/-- Packets that were accepted before, damaged packets, and packets without the
challenge once it has been seen have no influence on a run: they are refused,
and every call of the run returns what it returns without them and leaves the
same channel behind. -/
theorem insertions_have_no_influence {self : NetChannel} {events : List Event}
    (hharmless : Harmless Past.start self events) :
    (∀ seen ∈ observe self events, seen.event.isOriginal = false →
        ∃ e, seen.returned = .received (.err e)) ∧
      (observe self events).filter (·.event.isOriginal) =
        observe self (events.filter Event.isOriginal) :=
  observe_of_harmless ⟨fun _ => False.elim, False.elim⟩ hharmless

end Packets

/-- The second packet of a sender that leaves out the challenge. -/
def unchallengedPacket : List UInt8 := [2, 0, 0, 0, 0, 0, 0, 0, 0, 63, 49, 0, 0, 0, 0, 0]

/-- A packet that is duplicated, a byte, and a packet without the challenge. -/
def tamperedRun : List Event :=
  [.original (.readPacket orderlyPacket), .inserted orderlyPacket, .inserted [0],
    .inserted unchallengedPacket, .original (.writePacket [])]

/-- The theorem, at a run with a repeated, a forged and a damaged packet. -/
theorem insertions_have_no_influence_tamperedRun :
    (∀ seen ∈ observe fresh tamperedRun, seen.event.isOriginal = false →
        ∃ e, seen.returned = .received (.err e)) ∧
      (observe fresh tamperedRun).filter (·.event.isOriginal) =
        observe fresh (tamperedRun.filter Event.isOriginal) := by
  have haccepted :
      ∃ x, (readHeader { data := orderlyPacket, pos := 0 } orderlyPacket fresh).1 = .ok x :=
    ⟨(PACKET_FLAG_CHALLENGE, { data := orderlyPacket, pos := 128 }), by decide +kernel⟩
  have hcarries : CarriesChallenge fresh.challenge orderlyPacket :=
    ⟨⟨1, 0, PACKET_FLAG_CHALLENGE, 0, 0, some 5⟩, { data := orderlyPacket, pos := 128 },
      by decide +kernel, rfl⟩
  have hdamaged : Damaged [0] := ⟨.io, .inl rfl, by decide +kernel⟩
  have hmissing : ∀ challenge, ¬ CarriesChallenge challenge unchallengedPacket := by
    rintro challenge ⟨header, reader, hread, hchallenge⟩
    have hheader : Header.read { data := unchallengedPacket, pos := 0 } unchallengedPacket =
        .ok (⟨2, 0, 0#8, 0, 0, none⟩, { data := unchallengedPacket, pos := 96 }) :=
      by decide +kernel
    rw [hheader] at hread
    cases hread
    cases hchallenge
  refine insertions_have_no_influence
    ⟨nofun, fun _ => ⟨?_, fun _ => ⟨?_, fun _ => ⟨?_, fun _ => ⟨nofun, ?_⟩⟩⟩⟩⟩
  · rintro _ ⟨⟩
    exact .inl (.inr ⟨rfl, haccepted⟩)
  · rintro _ ⟨⟩
    exact .inr (.inl hdamaged)
  · rintro _ ⟨⟩
    exact .inr (.inr ⟨.inl (.inl (.inr hcarries)), hmissing _⟩)
  · exact fun _ => trivial

end NetChannel

end QuickplayServer
