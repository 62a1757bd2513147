import QuickplayServer.Net.Header
import QuickplayServer.Net.Later

/-!
# QuickplayServer.Net.Refused

What a header leaves behind that is refused.

A header that is refused for its fields or its challenge leaves the channel as
it was, and one that is refused for its sequence number sets at most
`has_seen_challenge`.  The acknowledgements are settled subchannel by
subchannel, so a header that is refused at one of them has settled those in
front of it (`SettledBefore`).
-/

namespace QuickplayServer

namespace NetChannel

open Method (Triple Keeps)

open Outcome (FailsIn)

/-! ## The file stream -/

/-- Nothing is queued on the file stream, and no subchannel holds any of it. -/
structure NoFile (channel : NetChannel) : Prop where
  queue : channel.outgoingReliableData 1 = []
  fragments : ∀ k, (channel.outgoingSubchannels k).numFragments 1 = 0

/-- An update of fields that `NoFile` says nothing about. -/
theorem NoFile.congr {self self' : NetChannel} (h : NoFile self)
    (hqueues : self'.outgoingReliableData = self.outgoingReliableData)
    (hsubchannels : self'.outgoingSubchannels = self.outgoingSubchannels) : NoFile self' :=
  ⟨hqueues ▸ h.queue, fun k => hsubchannels ▸ h.fragments k⟩

/-- Receiving leaves the queues and the subchannels. -/
theorem NoFile.upToReceived {self later : NetChannel} (hlater : UpToReceived self later)
    (h : NoFile self) : NoFile later := by
  rw [hlater]
  exact h.congr rfl rfl

/-- A subchannel that takes nothing of the file stream can be set. -/
theorem NoFile.setSubchannel {self : NetChannel} (h : NoFile self) {k : Fin MAX_SUBCHANNELS}
    {subchannel : SubChannel} (hsubchannel : subchannel.numFragments 1 = 0) :
    NoFile (self.setSubchannel k subchannel) := by
  refine ⟨h.queue, fun l => ?_⟩
  rw [setSubchannel_outgoingSubchannels]
  by_cases hl : l = k
  · subst hl
    rwa [Function.update_self]
  · rw [Function.update_of_ne hl]
    exact h.fragments l

/-- A stream with something in its queue is not the file stream. -/
theorem NoFile.ne {self : NetChannel} (h : NoFile self) {i : Fin MAX_STREAMS}
    (hi : self.outgoingReliableData i ≠ []) : (1 : Fin MAX_STREAMS) ≠ i := by
  rintro rfl
  exact hi h.queue

/-- The queue of another stream can be set. -/
theorem NoFile.setOutgoing {self : NetChannel} (h : NoFile self) {i : Fin MAX_STREAMS}
    (hi : self.outgoingReliableData i ≠ []) (queue : List OutgoingReliableData) :
    NoFile (self.setOutgoing i queue) := by
  refine ⟨?_, h.fragments⟩
  rw [setOutgoing_outgoingReliableData, Function.update_of_ne (h.ne hi)]
  exact h.queue

/-- No update of the sending side gives the file stream anything to send: a
subchannel only takes fragments of a stream with transfers, and no transfer comes
into an empty queue. -/
theorem NoFile.sendStep {self later : NetChannel} (h : NoFile self) (hstep : SendStep self later) :
    NoFile later := by
  cases hstep with
  | subchannel k subchannel hsubchannel =>
      obtain hnone | hsame := hsubchannel 1 h.queue
      · exact h.setSubchannel hnone
      · exact h.setSubchannel (hsame.trans (h.fragments k))
  | front hqueue => exact h.setOutgoing (by simp [hqueue]) _
  | pop hqueue => exact h.setOutgoing (by simp [hqueue]) _
  | state => exact h.congr rfl rfl
  | number => exact h.congr rfl rfl

/-- By induction on the updates. -/
theorem NoFile.sends {self later : NetChannel} (h : NoFile self) (hsends : Sends self later) :
    NoFile later := hsends.keeps (fun _ _ hstep hmid => hmid.sendStep hstep) h

section Calls

variable [BitstreamIo]

variable [Crc]

/-- Reading a packet settles subchannels and pops transfers, and queues none. -/
theorem readPacket_noFile (packet : List UInt8) : Keeps NoFile (readPacket packet) := by
  refine readPacket_keeps NoFile.upToReceived
    (readHeader_keeps (fun self header h => ?_) ?_ _ packet)
  · exact h.congr rfl rfl
  · exact fun _ _ _ _ _ => acceptSequence_keeps (fun _ _ hsends h => h.sends hsends)
      (fun _ h => h.congr rfl rfl) _ _

/-- The file stream is never used. -/
theorem run_noFile {challenge : BitVec 32} {configuration : Configuration} {calls : List Call}
    {self : NetChannel} (hrun : run (new challenge configuration) calls = some self) :
    NoFile self := by
  refine Run.induction (fun self call self' h happly => ?_) ⟨rfl, fun _ => rfl⟩ hrun
  cases call with
  | queueReliableMessages messages =>
      obtain ⟨-, rfl⟩ := returned_eq_some.mp happly
      obtain ⟨stream, -, -, -, hok⟩ | ⟨e, herr⟩ := queueReliableMessages_cases messages self
      · rw [hok]
        exact ⟨by simpa using h.queue, h.fragments⟩
      · rw [herr]
        exact h
  | writePacket messages =>
      obtain ⟨-, rfl⟩ := returned_eq_some.mp happly
      exact h.sends (writePacket_sends messages self)
  | readPacket packet =>
      obtain ⟨hpanic, rfl⟩ := returned_eq_some.mp happly
      exact (readPacket_noFile packet).run h hpanic

end Calls

/-! ## The subchannels in front of the one that refuses -/

/-- The fragments that an acknowledgement adds to the front transfer for this subchannel. -/
def acknowledged (self : NetChannel) (acked : BitVec 8) (k : Fin MAX_SUBCHANNELS) : Nat :=
  if (self.outgoingSubchannels k).state = .waitingForAck ∧ self.Agrees acked k = true then
    (self.outgoingSubchannels k).numFragments 0
  else 0

/-- Counts `num` fragments of the front transfer as acknowledged. -/
def countFront (num : Nat) (queue : List OutgoingReliableData) : List OutgoingReliableData :=
  queue.modifyHead fun stream =>
    { stream with
      ackedFragments := stream.ackedFragments + num
      pendingFragments := stream.pendingFragments - num }

/-- `later` is `channel` with the acknowledgements for `ks`, and nothing else. -/
structure SettledBefore (sequenceAck : Nat) (acked : BitVec 8) (ks : List (Fin MAX_SUBCHANNELS))
    (channel later : NetChannel) : Prop where
  subchannels : ∀ k, later.outgoingSubchannels k =
    if k ∈ ks then (channel.outgoingSubchannels k).settle (channel.Agrees acked k) sequenceAck
    else channel.outgoingSubchannels k
  queue : later.outgoingReliableData 0 =
    countFront (ks.map (channel.acknowledged acked)).sum (channel.outgoingReliableData 0)
  others : later = { channel with
    outgoingReliableData :=
      Function.update channel.outgoingReliableData 0 (later.outgoingReliableData 0)
    outgoingSubchannels := later.outgoingSubchannels }

/-- Counting no fragments changes nothing. -/
@[simp] theorem countFront_zero (queue : List OutgoingReliableData) :
    countFront 0 queue = queue := by
  cases queue <;> rfl

/-- Counting twice counts the sum. -/
@[simp] theorem countFront_countFront (m n : Nat) (queue : List OutgoingReliableData) :
    countFront n (countFront m queue) = countFront (m + n) queue := by
  cases queue with
  | nil => rfl
  | cons stream queue => simp [countFront, Nat.add_assoc, Nat.sub_sub]

/-- Nothing has been settled in front of the first subchannel. -/
theorem SettledBefore.nil (self : NetChannel) (sequenceAck : Nat) (acked : BitVec 8) :
    SettledBefore sequenceAck acked [] self self where
  subchannels _ := by simp
  queue := by simp
  others := by rw [Function.update_eq_self]

/-- Settling subchannels leaves the state bits, so the later ones agree with the
acknowledgement as they did before. -/
theorem SettledBefore.agrees {self self' : NetChannel} {sequenceAck : Nat} {acked : BitVec 8}
    {ks : List (Fin MAX_SUBCHANNELS)} (h : SettledBefore sequenceAck acked ks self self')
    (k : Fin MAX_SUBCHANNELS) : self'.Agrees acked k = self.Agrees acked k := by
  rw [Agrees, Agrees, h.others]

/-- A round that settles one subchannel, and a loop that settles others behind it,
have settled them all; the counts of the front transfer add up. -/
theorem SettledBefore.cons {self self' self'' : NetChannel} {sequenceAck : Nat} {acked : BitVec 8}
    {k : Fin MAX_SUBCHANNELS} {ks : List (Fin MAX_SUBCHANNELS)} (hk : k ∉ ks)
    (h : SettledBefore sequenceAck acked [k] self self')
    (h' : SettledBefore sequenceAck acked ks self' self'') :
    SettledBefore sequenceAck acked (k :: ks) self self'' where
  subchannels l := by
    have hfirst := h.subchannels l
    have hrest := h'.subchannels l
    rw [h.agrees l] at hrest
    by_cases hlk : l = k
    · subst hlk
      simpa [hk, hfirst] using hrest
    · simpa [hlk, hfirst] using hrest
  queue := by
    have hcount : ks.map (self'.acknowledged acked) = ks.map (self.acknowledged acked) := by
      refine List.map_congr_left fun l hl => ?_
      have hlk : l ∉ [k] := by
        rw [List.mem_singleton]
        rintro rfl
        exact hk hl
      rw [acknowledged, acknowledged, h.agrees, h.subchannels, if_neg hlk]
    rw [h'.queue, h.queue, hcount, countFront_countFront]
    simp
  others := by
    rw [h'.others, h.others]
    simp

/-- Counting a subchannel panics, or fails without a trace, or counts it. -/
theorem ackStreams_cases {self : NetChannel} {subchannel : SubChannel}
    (hfile : subchannel.numFragments 1 = 0) :
    ((List.finRange MAX_STREAMS).forM (ackStream subchannel) self).1 = .panic ∨
      (∃ e, (List.finRange MAX_STREAMS).forM (ackStream subchannel) self = (.err e, self)) ∨
      (List.finRange MAX_STREAMS).forM (ackStream subchannel) self = (.ok (), self.setOutgoing 0
        (countFront (subchannel.numFragments 0) (self.outgoingReliableData 0))) := by
  have hloop : ∀ self' : NetChannel, [1].forM (ackStream subchannel) self' = (.ok (), self') :=
    fun self' => Method.forM_cons_ok (ackStream_of_zero hfile)
  rw [finRange_MAX_STREAMS]
  by_cases hzero : subchannel.numFragments 0 = 0
  · right; right
    rw [Method.forM_cons_ok (ackStream_of_zero hzero), hloop, hzero, countFront_zero]
    unfold NetChannel.setOutgoing
    rw [Function.update_eq_self]
  · cases hqueue : self.outgoingReliableData 0 with
    | nil =>
        right; left
        refine ⟨.noStreamForAck, Method.forM_cons_err ?_⟩
        simp only [ackStream, hzero, if_false, Method.get_bind, hqueue, Method.fail_apply]
    | cons stream queue =>
        by_cases hfits : stream.ackedFragments + subchannel.numFragments 0 < 2 ^ 32 ∧
            subchannel.numFragments 0 ≤ stream.pendingFragments
        · right; right
          rw [Method.forM_cons_ok
            (ackStream_zero hqueue (Nat.pos_of_ne_zero hzero) hfits.1 hfits.2),
            hloop]
          rfl
        · left
          have hfirst : (ackStream subchannel 0 self).1 = .panic := by
            simp only [ackStream, hzero, if_false, Method.get_bind, hqueue]
            unfold Outcome.add32
            split
            case isFalse => rfl
            case isTrue hadd =>
              rw [Method.lift_bind_ok, Outcome.checkedSub, if_neg fun hsub => hfits ⟨hadd, hsub⟩]
              rfl
          rw [List.forM_eq_forM, List.forM_cons, Method.bind_panic (Prod.ext hfirst rfl)]

/-- A round of the loop panics, or is refused and leaves the channel as it
was, or settles the subchannel. -/
theorem updateOutgoingSubchannel_cases {self : NetChannel} (h : NoFile self) (sequenceAck : Nat)
    (acked : BitVec 8) (k : Fin MAX_SUBCHANNELS) :
    (updateOutgoingSubchannel sequenceAck acked k self).1 = .panic ∨
      (∃ e, updateOutgoingSubchannel sequenceAck acked k self = (.err e, self)) ∨
      ∃ self', updateOutgoingSubchannel sequenceAck acked k self = (.ok (), self') ∧
        SettledBefore sequenceAck acked [k] self self' := by
  by_cases hrejects : (self.outgoingSubchannels k).Rejects (self.Agrees acked k) sequenceAck
  · obtain ⟨e, -, herr⟩ := updateOutgoingSubchannel_of_rejects hrejects
    exact .inr (.inl ⟨e, herr⟩)
  · rw [updateOutgoingSubchannel_eq hrejects]
    by_cases hacked : (self.outgoingSubchannels k).state = .waitingForAck ∧
        self.Agrees acked k = true
    · rw [if_pos hacked]
      obtain hpanic | ⟨e, herr⟩ | hok := ackStreams_cases (h.fragments k)
      · left
        rw [Method.bind_panic (Prod.ext hpanic rfl)]
      · exact .inr (.inl ⟨e, Method.bind_err herr⟩)
      · refine .inr (.inr ⟨_, Method.bind_ok hok, fun l => ?_, ?_, rfl⟩)
        · by_cases hl : l = k
          · subst hl
            simp [SubChannel.settle, hacked]
          · simp [hl]
        · simp [acknowledged, hacked]
    · rw [if_neg hacked]
      refine .inr (.inr ⟨_, rfl, fun l => ?_, ?_, ?_⟩)
      · by_cases hl : l = k
        · subst hl
          simp
        · simp [hl]
      · simp [acknowledged, hacked]
      · rw [setSubchannel_outgoingReliableData, Function.update_eq_self]
        rfl

/-- Settling counts fragments of stream 0 only. -/
theorem SettledBefore.noFile {self self' : NetChannel} {sequenceAck : Nat} {acked : BitVec 8}
    {ks : List (Fin MAX_SUBCHANNELS)} (h : SettledBefore sequenceAck acked ks self self')
    (hself : NoFile self) : NoFile self' where
  queue := by
    have hne : (1 : Fin MAX_STREAMS) ≠ 0 := by decide
    rw [h.others]
    dsimp only
    rw [Function.update_of_ne hne]
    exact hself.queue
  fragments k := by
    have hk := hself.fragments k
    rw [h.subchannels k]
    unfold SubChannel.settle
    split_ifs <;> first | exact hk | rfl

/-- The loop is refused at one subchannel, with those in front of it settled. -/
theorem updateLoop_refused {self self' : NetChannel} {sequenceAck : Nat} {acked : BitVec 8}
    {ks : List (Fin MAX_SUBCHANNELS)} {e : Error} (hks : ks.Nodup) (h : NoFile self)
    (herr : ks.forM (updateOutgoingSubchannel sequenceAck acked) self = (.err e, self')) :
    ∃ pre k post, ks = pre ++ k :: post ∧ SettledBefore sequenceAck acked pre self self' ∧
      updateOutgoingSubchannel sequenceAck acked k self' = (.err e, self') := by
  induction ks generalizing self with
  | nil => cases herr
  | cons k ks ih =>
      obtain ⟨hk, hks⟩ := List.nodup_cons.mp hks
      obtain hpanic | ⟨e', herr'⟩ | ⟨mid, hok, hsettled⟩ :=
        updateOutgoingSubchannel_cases h sequenceAck acked k
      · rw [List.forM_eq_forM, List.forM_cons, Method.bind_panic (Prod.ext hpanic rfl)] at herr
        cases herr
      · rw [Method.forM_cons_err herr'] at herr
        cases herr
        exact ⟨[], k, ks, rfl, SettledBefore.nil _ sequenceAck acked, herr'⟩
      · rw [Method.forM_cons_ok hok] at herr
        obtain ⟨pre, l, post, rfl, hpre, hl⟩ := ih hks (hsettled.noFile h) herr
        refine ⟨k :: pre, l, post, rfl, hsettled.cons (fun hmem => hk ?_) hpre, hl⟩
        exact List.mem_append_left _ hmem

/-! ## Headers -/

/-- Popping transfers can panic where their fragments are counted, but it is never
what refuses a header. -/
theorem popCompletedOutgoingTransfers_ne_err (self : NetChannel) (e : Error) :
    (popCompletedOutgoingTransfers self).1 ≠ .err e := by
  have htotal : ∀ bytes, (bytesToFragments bytes).FailsIn fun _ => False := fun bytes =>
    FailsIn.bind (FailsIn.add32 _ _) fun _ => FailsIn.bind (FailsIn.checkedSub _ _) fun _ =>
      FailsIn.pure _
  have hpop : Triple (fun _ => True) popCompletedOutgoingTransfers (fun _ _ => True)
      fun _ _ => False := by
    refine Triple.forM (fun i => Triple.get_bind fun self _ => ?_) _
    cases self.outgoingReliableData i with
    | nil => exact Triple.pure fun _ _ => trivial
    | cons stream queue =>
        refine Triple.bind (Q := fun _ _ => True) ?_ fun _ => ?_
        · exact Triple.lift (fun _ _ _ _ => trivial) fun e s he _ => htotal _ e he
        · exact Triple.ite (Triple.modify fun _ _ => trivial) (Triple.pure fun _ _ => trivial)
  exact fun herr => hpop.of_err trivial (Prod.ext herr rfl)

/-- What a refused acknowledgement leaves behind. -/
theorem acceptAck_refused {self self' : NetChannel} {sequence sequenceAck : Nat} {acked : BitVec 8}
    {e : Error} (h : NoFile self)
    (herr : acceptAck sequence sequenceAck acked self = (.err e, self')) :
    ∃ pre k post, List.finRange MAX_SUBCHANNELS = pre ++ k :: post ∧
      SettledBefore sequenceAck acked pre self self' ∧
      updateOutgoingSubchannel sequenceAck acked k self' = (.err e, self') := by
  obtain hupdate | ⟨_, mid, -, hrest⟩ := Method.bind_eq_err.mp herr
  · exact updateLoop_refused (List.nodup_finRange _) h hupdate
  · rw [Method.modify_bind] at hrest
    exact absurd (congrArg Prod.fst hrest) (popCompletedOutgoingTransfers_ne_err _ e)

variable [BitstreamIo] [Crc]

/-- A header that is refused leaves the channel as it was if it cannot be read or
is not admitted.  Else the challenge has been seen: that is all that a stale
sequence number or too many dropped packets leave behind, and a header that is
refused at a subchannel has settled the subchannels in front of that one. -/
theorem readHeader_refused {challenge : BitVec 32} {configuration : Configuration}
    {calls : List Call} {self self' : NetChannel} {packet : List UInt8} {e : Error}
    (hrun : run (new challenge configuration) calls = some self)
    (herr : readHeader { data := packet, pos := 0 } packet self = (.err e, self')) :
    ((∀ header reader, Header.read { data := packet, pos := 0 } packet = .ok (header, reader) →
        ¬ header.Admitted self) → self' = self) ∧
      ∀ header reader, Header.read { data := packet, pos := 0 } packet = .ok (header, reader) →
        header.Admitted self →
        (header.sequence ≤ self.inSequenceNr ∨ self.configuration.server.maxPacketsDropped <
            header.sequence - (self.inSequenceNr + header.nChoked + 1) →
          self' = header.seenBy self) ∧
        (self.inSequenceNr < header.sequence →
          header.sequence - (self.inSequenceNr + header.nChoked + 1) ≤
            self.configuration.server.maxPacketsDropped →
          ∃ pre k post, List.finRange MAX_SUBCHANNELS = pre ++ k :: post ∧
            SettledBefore header.sequenceAck (BitVec.ofNat 8 header.reliableState) pre
              (header.seenBy self) self' ∧
            updateOutgoingSubchannel header.sequenceAck (BitVec.ofNat 8 header.reliableState) k
              self' = (.err e, self')) := by
  rw [readHeader_eq] at herr
  cases hread : Header.read { data := packet, pos := 0 } packet with
  | panic => exact absurd hread (Header.read_ne_panic packet)
  | err e' =>
      rw [hread] at herr
      cases herr
      exact ⟨fun _ => rfl, nofun⟩
  | ok x =>
      obtain ⟨header, reader⟩ := x
      rw [hread, Method.resume_ok] at herr
      unfold accept at herr
      dsimp only at herr
      by_cases hadmitted : header.Admitted self
      · rw [if_pos hadmitted] at herr
        refine ⟨fun h => absurd hadmitted (h header reader rfl), ?_⟩
        rintro _ _ ⟨⟩ -
        have hnr : (header.seenBy self).inSequenceNr = self.inSequenceNr := rfl
        have hmax : (header.seenBy self).configuration = self.configuration := rfl
        obtain haccept | ⟨_, mid, -, hpure⟩ := Method.bind_eq_err.mp herr
        · rw [acceptSequence_cases (Header.read_bounds hread).1, hnr, hmax] at haccept
          split_ifs at haccept with hstale hchoked hdropped
          · cases haccept
            exact ⟨fun _ => rfl, fun hfresh => absurd hstale (Nat.not_le.mpr hfresh)⟩
          · cases haccept
          · cases haccept
            exact ⟨fun _ => rfl, fun _ hfew => absurd hdropped (Nat.not_lt.mpr hfew)⟩
          · have hseen : NoFile (header.seenBy self) := (run_noFile hrun).congr rfl rfl
            exact ⟨fun h => absurd h (not_or.mpr ⟨hstale, hdropped⟩),
              fun _ _ => acceptAck_refused hseen haccept⟩
        · cases hpure
      · rw [if_neg hadmitted] at herr
        cases herr
        refine ⟨fun _ => rfl, ?_⟩
        rintro _ _ ⟨⟩ h
        exact absurd h hadmitted

end NetChannel

/-! ## Two refused headers -/

namespace NetChannel

/-- A packet with the challenge of `fresh` and a stale sequence number. -/
def stalePacket : List UInt8 := [0, 0, 0, 0, 0, 0, 0, 0, 32, 211, 246, 0, 5, 0, 0, 0]

/-- A packet with the bits of subchannels 0 and 1, which acknowledges the first
of two packets only. -/
def tornPacket : List UInt8 := [1, 0, 0, 0, 1, 0, 0, 0, 32, 163, 203, 3, 5, 0, 0, 0]

/-- A configuration with one fragment in a packet. -/
def narrow : Configuration :=
  { Configuration.loadDefault with
    server := { Configuration.loadDefault.server with maxReliablePacketSize := 256 } }

/-- A transfer of two fragments is sent in two packets. -/
def twoPackets : List Call :=
  [.queueReliableMessages [.print ⟨String.ofList (List.replicate 300 'a')⟩], .writePacket [],
    .writePacket []]

/-- The fields of the stale packet. -/
def staleHeader : Header := ⟨0, 0, PACKET_FLAG_CHALLENGE, 0, 0, some 5⟩

/-- A stale packet with the right challenge leaves a new channel with the challenge
seen. -/
theorem readHeader_refused_stalePacket :
    staleHeader.Admitted fresh ∧ staleHeader.sequence ≤ fresh.inSequenceNr ∧
      (readHeader { data := stalePacket, pos := 0 } stalePacket fresh).2 =
        staleHeader.seenBy fresh := by
  have hread : Header.read { data := stalePacket, pos := 0 } stalePacket =
      .ok (staleHeader, { data := stalePacket, pos := 128 }) := by decide +kernel
  have herr : readHeader { data := stalePacket, pos := 0 } stalePacket fresh =
      (.err (.unexpectedSequence 0 0), { fresh with hasSeenChallenge := true }) := by
    rw [readHeader_eq, hread]
    rfl
  have hrun : run fresh [] = some fresh := rfl
  have hadmitted : staleHeader.Admitted fresh := rfl
  have hstale : staleHeader.sequence ≤ fresh.inSequenceNr := le_refl 0
  refine ⟨hadmitted, hstale, ?_⟩
  rw [herr]
  exact ((readHeader_refused hrun herr).2 _ _ hread hadmitted).1 (.inl hstale)

set_option synthInstance.maxSize 512 in
/-- A stale header makes the channel see the challenge, and a header that is
refused at subchannel 1 frees subchannel 0 and counts its fragment. -/
theorem refused_headers_change :
    ((readHeader { data := stalePacket, pos := 0 } stalePacket fresh).1 =
        .err (.unexpectedSequence 0 0) ∧
      fresh.hasSeenChallenge = false ∧
      (readHeader { data := stalePacket, pos := 0 } stalePacket fresh).2.hasSeenChallenge = true) ∧
    ∃ self, run (new 5#32 narrow) twoPackets = some self ∧
      (self.outgoingSubchannels 0).state = .waitingForAck ∧
      (self.outgoingReliableData 0).map (·.ackedFragments) = [0] ∧
      (readHeader { data := tornPacket, pos := 0 } tornPacket self).1 =
        .err (.invalidReliableState 1 2 1) ∧
      ((readHeader { data := tornPacket, pos := 0 } tornPacket self).2.outgoingSubchannels
        0).state =
        .free ∧
      ((readHeader { data := tornPacket, pos := 0 } tornPacket self).2.outgoingReliableData 0).map
        (·.ackedFragments) = [1] := by
  refine ⟨⟨by decide +kernel, rfl, by decide +kernel⟩, ?_⟩
  have hrun : (run (new 5#32 narrow) twoPackets).map (fun self =>
      ((self.outgoingSubchannels 0).state, (self.outgoingReliableData 0).map (·.ackedFragments),
        (readHeader { data := tornPacket, pos := 0 } tornPacket self).1,
        ((readHeader { data := tornPacket, pos := 0 } tornPacket self).2.outgoingSubchannels
          0).state,
        ((readHeader { data := tornPacket, pos := 0 } tornPacket self).2.outgoingReliableData 0).map
          (·.ackedFragments))) =
      some (.waitingForAck, [0], .err (.invalidReliableState 1 2 1), .free, [1]) := by
    decide +kernel
  obtain ⟨self, hself, hvalues⟩ := Option.map_eq_some_iff.mp hrun
  simp only [Prod.mk.injEq] at hvalues
  exact ⟨self, hself, hvalues⟩

end NetChannel

end QuickplayServer
