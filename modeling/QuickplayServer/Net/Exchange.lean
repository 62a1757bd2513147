import QuickplayServer.Net.Writable
import QuickplayServer.Net.ReadSection

/-!
# QuickplayServer.Net.Exchange

What a packet of the other party does to a channel in order.

Its header is refused (`readPacket_of_not_due`), or it settles every
subchannel and pops the front transfer if that is complete
(`readHeader_of_due`).  What is behind the header then only touches
the incoming transfers, and toggles at most the bit of the subchannel in the
packet (`readPacket_bodyRead`).
-/

namespace QuickplayServer

namespace NetChannel

open Method (Triple)

/-! ## The header -/

/-- `later` is `channel` after it accepted a header. -/
structure Acknowledged (sequence sequenceAck : Nat) (acked : BitVec 8)
    (channel later : NetChannel) : Prop where
  books : Bookkeeping later
  subchannels : ∀ k, later.outgoingSubchannels k =
    (channel.outgoingSubchannels k).settle (channel.Agrees acked k) sequenceAck
  /-- The transfer at the front is popped when all of it is acknowledged. -/
  queue : ∀ stream rest, channel.outgoingReliableData 0 = stream :: rest →
    if stream.sentFragments = fragments stream.data.length ∧
        ∀ k, (later.outgoingSubchannels k).state = .free then
      later.outgoingReliableData 0 = rest
    else ∃ stream', later.outgoingReliableData 0 = stream' :: rest ∧ stream'.data = stream.data ∧
      stream'.sentFragments = stream.sentFragments
  empty : channel.outgoingReliableData 0 = [] → later.outgoingReliableData 0 = []
  inSequenceNr : later.inSequenceNr = sequence
  others : later = { channel with
    inSequenceNr := later.inSequenceNr
    outSequenceNrAck := later.outSequenceNrAck
    outgoingReliableData := later.outgoingReliableData
    outgoingSubchannels := later.outgoingSubchannels }

theorem Settled.cons_of {self self' : NetChannel} {sequenceAck : Nat} {acked : BitVec 8}
    {ks : List (Fin MAX_SUBCHANNELS)} (h : Settled sequenceAck acked ks self self')
    {stream : OutgoingReliableData} {queue : List OutgoingReliableData}
    (hqueue : self.outgoingReliableData 0 = stream :: queue) :
    ∃ stream', self'.outgoingReliableData 0 = stream' :: queue ∧ stream'.data = stream.data ∧
      stream'.sentFragments = stream.sentFragments := by
  have hfront := h.front
  have htail := h.tail
  rw [hqueue] at hfront htail
  cases hqueue' : self'.outgoingReliableData 0 with
  | nil => simp [hqueue'] at hfront
  | cons stream' queue' =>
      rw [hqueue'] at hfront htail
      simp only [List.head?_cons, Option.map_some, Option.some.injEq, Prod.mk.injEq] at hfront
      obtain rfl : queue' = queue := htail
      exact ⟨stream', rfl, hfront⟩

theorem Settled.nil_of {self self' : NetChannel} {sequenceAck : Nat} {acked : BitVec 8}
    {ks : List (Fin MAX_SUBCHANNELS)} (h : Settled sequenceAck acked ks self self')
    (hempty : self.outgoingReliableData 0 = []) : self'.outgoingReliableData 0 = [] := by
  have hfront := h.front
  rwa [hempty, List.head?_nil, Option.map_none, Option.map_eq_none_iff, List.head?_eq_none_iff]
    at hfront

@[simp] theorem popped_outgoingSubchannels (self : NetChannel) :
    self.popped.outgoingSubchannels = self.outgoingSubchannels := by
  unfold popped
  split
  · rfl
  · split <;> rfl

theorem popped_others (self : NetChannel) :
    self.popped = { self with outgoingReliableData := self.popped.outgoingReliableData } := by
  unfold popped
  split
  · rfl
  · split <;> rfl

/-- The transfer at the front is complete when all of it was sent and no
subchannel holds any of it. -/
theorem complete_iff {self : NetChannel} (hb : Bookkeeping self) {stream : OutgoingReliableData}
    {queue : List OutgoingReliableData} (hqueue : self.outgoingReliableData 0 = stream :: queue) :
    stream.ackedFragments = fragments stream.data.length ↔
      stream.sentFragments = fragments stream.data.length ∧
        ∀ k, (self.outgoingSubchannels k).state = .free := by
  have htotal := hb.front_total hqueue
  unfold OutgoingReliableData.sentFragments
  constructor
  · intro hcomplete
    exact ⟨by omega, all_free_of_complete hb hqueue hcomplete⟩
  · rintro ⟨hsent, hfree⟩
    have hpending : stream.pendingFragments = 0 := by
      rw [hb.front_pending hqueue]
      exact Finset.sum_eq_zero fun k _ => hb.free_empty k (hfree k)
    omega

/-- A header that every subchannel accepts settles them, and completes what it completes. -/
theorem acceptSequence_of_accepts {self : NetChannel} (hb : Bookkeeping self) {sequence : Nat}
    {sequenceAck : Nat} {acked : BitVec 8} (hlt : self.inSequenceNr < sequence)
    (hsequence : sequence < 2 ^ 32)
    (hgap : sequence - (self.inSequenceNr + 1) ≤ self.configuration.server.maxPacketsDropped)
    (h : ∀ k, ¬ (self.outgoingSubchannels k).Rejects (self.Agrees acked k) sequenceAck) :
    ∃ later, acceptSequence sequence sequenceAck acked.toNat 0 self = (.ok (), later) ∧
      Acknowledged sequence sequenceAck acked self later := by
  obtain ⟨mid, hmid, hsettled, hbmid⟩ := updateOutgoingSubchannels_of_accepts hb h
  have hbnext :
      Bookkeeping { mid with inSequenceNr := sequence, outSequenceNrAck := sequenceAck } :=
    hbmid.congr rfl rfl rfl
  rw [acceptSequence_eq hsequence, if_neg (by omega), if_neg (by omega), Method.bind_ok hmid,
    Method.modify_bind, popCompletedOutgoingTransfers_eq hbnext]
  refine ⟨_, rfl, popped_keeps hbnext, fun k => ?_, fun stream rest hqueue => ?_, fun hempty => ?_,
    ?_, ?_⟩
  · rw [popped_outgoingSubchannels, hsettled.subchannels, if_pos (List.mem_finRange k)]
  · obtain ⟨stream', hmidqueue, hdata, hsent⟩ := hsettled.cons_of hqueue
    have hcomplete := complete_iff hbnext hmidqueue
    rw [hdata, hsent] at hcomplete
    rw [popped_outgoingSubchannels, popped]
    simp only [hmidqueue, hdata, hcomplete]
    split
    · simp
    · exact ⟨stream', hmidqueue, hdata, hsent⟩
  · have hmidqueue := hsettled.nil_of hempty
    rw [popped]
    simp only [hmidqueue]
  · rw [popped_others]
  · rw [popped_others, hsettled.others]

/-! ## The body -/

/-- The channel after it toggled the bit of subchannel `k`. -/
def toggled (self : NetChannel) (k : Fin MAX_SUBCHANNELS) : NetChannel :=
  { self with inReliableState := self.inReliableState ^^^ (1#8 <<< k.val) }

/-- `later` is `channel` after it read the rest of a packet with the section
`reliable`: the bit of the section's subchannel is toggled, or no bit is. -/
def BodyRead (reliable : Option Section) (channel later : NetChannel) : Prop :=
  UpToIncoming channel later ∨
    ∃ s, reliable = some s ∧ UpToIncoming (channel.toggled s.subchannel) later

theorem BodyRead.others {reliable : Option Section} {self later : NetChannel}
    (h : BodyRead reliable self later) : later = { self with
      inReliableState := later.inReliableState
      incomingReliableData := later.incomingReliableData } := by
  obtain h | ⟨s, -, h⟩ := h <;> rw [h]
  rfl

theorem BodyRead.inReliableState {reliable : Option Section} {self later : NetChannel}
    (h : BodyRead reliable self later) : later.inReliableState = self.inReliableState ∨
      ∃ s, reliable = some s ∧
        later.inReliableState = self.inReliableState ^^^ (1#8 <<< s.subchannel.val) := by
  obtain h | ⟨s, hs, h⟩ := h
  · rw [h]
    exact .inl rfl
  · rw [h]
    exact .inr ⟨s, hs, rfl⟩

theorem UpToIncoming.toggled {self self' : NetChannel} (h : UpToIncoming self self')
    (k : Fin MAX_SUBCHANNELS) : UpToIncoming (self.toggled k) (self'.toggled k) := by
  unfold UpToIncoming NetChannel.toggled at *
  rw [h]

variable [BitstreamIo]

theorem readReliableSection_bodyRead {self : NetChannel} {s : Section} {r : BitReader}
    {tl : List Bool} (hr : r.rest = s.bits ++ tl) :
    Triple (· = self) (readReliableSection r) (fun _ => BodyRead (some s) self)
      fun e self' => BodyRead (some s) self self' ∧ e.ofSender = false := by
  have hr' : r.rest = BitList.ofNat 3 s.subchannel ++ (s.fragment.bits ++ [false] ++ tl) := by
    simpa [Section.bits] using hr
  have hindex : (s.subchannel : Nat) < 2 ^ 3 := s.subchannel.isLt
  have hbit := Reads.readIn (ε := Error) hindex r _ hr'
  have hbefore : ∀ self', UpToIncoming self self' → BodyRead (some s) self self' := fun _ => .inl
  have hafter : ∀ self', UpToIncoming (self.toggled s.subchannel) self' →
      BodyRead (some s) self self' := fun _ h => .inr ⟨s, rfl, h⟩
  unfold readReliableSection
  simp only [hbit]
  refine Triple.bind (Q := fun x s' => x.1 = s.subchannel.val ∧ UpToIncoming self s') ?_ fun x => ?_
  · rintro _ rfl
    exact ⟨rfl, rfl⟩
  · obtain ⟨index, reader⟩ := x
    rintro self' ⟨rfl, hself'⟩
    refine Triple.bind (Q := fun _ => UpToIncoming self) ?_ (fun reader => ?_) self' hself'
    · exact Triple.consequence (readStreams_onlyIncoming self _ _) (fun _ => id) (fun _ _ => id)
        fun e s' h => ⟨hbefore s' h.1, h.2⟩
    · refine Triple.bind (Q := fun _ => UpToIncoming (self.toggled s.subchannel))
        (Triple.modify fun s' hs' => hs'.toggled s.subchannel) fun _ => ?_
      refine Triple.bind (Q := fun _ => UpToIncoming (self.toggled s.subchannel)) ?_ fun messages =>
        Triple.pure hafter
      exact Triple.consequence (readAllReliableMessages_onlyIncoming _ _ _) (fun _ => id)
        (fun _ _ => id) fun e s' h => ⟨hafter s' h.1, h.2⟩

variable [Crc]

/-- The sequence number is new, and not too far ahead. -/
structure Due (channel : NetChannel) (sequence : Nat) : Prop where
  lt : channel.inSequenceNr < sequence
  gap : sequence - (channel.inSequenceNr + 1) ≤ channel.configuration.server.maxPacketsDropped

/-- A packet that is not due is refused. -/
theorem readPacket_of_not_due {self : NetChannel} {p : Packet} (hsequence : p.sequence < 2 ^ 32)
    (hack : p.sequenceAck < 2 ^ 32) (hchallenge : p.challenge = self.challenge)
    (hdue : ¬ Due self p.sequence) : ∃ e, e.ofSender = false ∧
      (p.sequence ≤ self.inSequenceNr → e = .unexpectedSequence p.sequence self.inSequenceNr) ∧
      readPacket p.bytes self = (.err e, { self with hasSeenChallenge := true }) := by
  have hheader : readHeader { data := p.bytes, pos := 0 } p.bytes self = _ :=
    readHeader_bytes hsequence hack hchallenge
  have haccept := acceptSequence_eq hsequence p.sequenceAck p.reliableState
    { self with hasSeenChallenge := true }
  by_cases hold : p.sequence ≤ self.inSequenceNr
  · rw [if_pos hold] at haccept
    rw [Method.bind_err haccept] at hheader
    exact ⟨_, rfl, fun _ => rfl, by rw [readPacket, Method.bind_err hheader]⟩
  · have hgap :
        self.configuration.server.maxPacketsDropped < p.sequence - (self.inSequenceNr + 1) :=
      Nat.not_le.mp fun hgap => hdue ⟨Nat.not_le.mp hold, hgap⟩
    rw [if_neg hold, if_pos hgap] at haccept
    rw [Method.bind_err haccept] at hheader
    exact ⟨_, rfl, fun hle => absurd hle hold, by rw [readPacket, Method.bind_err hheader]⟩

/-- The header of a packet that is due is accepted if every subchannel accepts
its acknowledgement. -/
theorem readHeader_of_due {self : NetChannel} (hb : Bookkeeping self) {p : Packet}
    (hsequence : p.sequence < 2 ^ 32) (hack : p.sequenceAck < 2 ^ 32)
    (hchallenge : p.challenge = self.challenge) (hdue : Due self p.sequence)
    (h :
      ∀ k, ¬ (self.outgoingSubchannels k).Rejects (self.Agrees p.reliableState k) p.sequenceAck) :
    ∃ later, readHeader { data := p.bytes, pos := 0 } p.bytes self =
        (.ok (p.flags, { data := p.bytes, pos := 128 }), later) ∧
      Acknowledged p.sequence p.sequenceAck p.reliableState { self with hasSeenChallenge := true }
        later := by
  have hbooks : Bookkeeping { self with hasSeenChallenge := true } := hb.congr rfl rfl rfl
  obtain ⟨later, haccept, hacknowledged⟩ :=
    acceptSequence_of_accepts hbooks hdue.lt hsequence hdue.gap h
  refine ⟨later, ?_, hacknowledged⟩
  rw [readHeader_bytes hsequence hack hchallenge, Method.bind_ok haccept, Method.pure_apply]

/-- A packet whose header was accepted. -/
theorem readPacket_bodyRead {self self₁ : NetChannel} {p : Packet}
    (hheader : readHeader { data := p.bytes, pos := 0 } p.bytes self =
      (.ok (p.flags, { data := p.bytes, pos := 128 }), self₁))
    {outcome : Result (List Message)} {later : NetChannel}
    (hread : readPacket p.bytes self = (outcome, later)) (hpanic : outcome ≠ .panic) :
    BodyRead p.reliable self₁ later ∧ ∀ e, outcome = .err e → e.ofSender = false := by
  have hfinish : ∀ {m : Method NetChannel Error (List Message)},
      Triple (· = self₁) m (fun _ => BodyRead p.reliable self₁)
        (fun e self' => BodyRead p.reliable self₁ self' ∧ e.ofSender = false) →
      m self₁ = (outcome, later) →
      BodyRead p.reliable self₁ later ∧ ∀ e, outcome = .err e → e.ofSender = false := by
    intro m hm hat
    have hpost := hm self₁ rfl
    rw [hat] at hpost
    cases outcome with
    | ok messages => exact ⟨hpost, by simp⟩
    | err e =>
        refine ⟨hpost.1, fun e' he' => ?_⟩
        cases he'
        exact hpost.2
    | panic => exact absurd rfl hpanic
  rw [readPacket, Method.bind_ok hheader] at hread
  cases hreliable : p.reliable with
  | none =>
      simp only [Packet.flags_contains_reliable, hreliable, Option.isSome_none, Bool.false_eq_true,
        if_false] at hread
      rw [hreliable] at hfinish
      refine hfinish (Triple.consequence (Triple.lift_failsIn (readMessages_notOfSender _ _ _))
        (fun _ => id) (fun _ s hs => ?_) fun e s hs => ⟨?_, hs.2⟩) hread
      · exact .inl (hs ▸ rfl)
      · exact .inl (hs.1 ▸ rfl)
  | some s =>
      have hrest := p.rest_body
      simp only [BitList.align, Packet.body, hreliable, Option.map_some, Option.getD_some,
        List.append_assoc] at hrest
      simp only [Packet.flags_contains_reliable, hreliable, Option.isSome_some, if_true] at hread
      rw [hreliable] at hfinish
      exact hfinish (Triple.bind (readReliableSection_bodyRead hrest) fun x =>
        Triple.lift_failsIn (readMessages_notOfSender _ _ _)) hread

end NetChannel

end QuickplayServer
