import QuickplayServer.Net.Handover
import QuickplayServer.Net.Later

/-!
# QuickplayServer.Net.RoundTrip

A packet that one channel writes, read by the other.

The section and the messages are read back bit for bit; what decides is the
padding behind them (`readMessages_padded`).  A section that opens a transfer
leaves 7 bits over whole bytes, one that continues it leaves 3, a message
leaves 6, so the padding depends on the layout and on the number of messages
modulo 4.
-/

namespace QuickplayServer

namespace NetChannel

open Method (Triple Keeps)

section

variable [BitstreamIo]

/-! ## What a written packet says -/

/-- A header is only written with numbers that fit it. -/
theorem writeHeader_eq_ok {self : NetChannel} {w w' : BitWriter} (h : writeHeader self w = .ok w') :
    self.outSequenceNr < 2 ^ 32 ∧ self.inSequenceNr < 2 ^ 32 := by
  simp only [writeHeader, Outcome.bind_eq_ok, BitWriter.writeOut_eq_ok] at h
  obtain ⟨_, ⟨hout, -⟩, _, ⟨hin, -⟩, -⟩ := h
  exact ⟨hout, hin⟩

omit [BitstreamIo] in
/-- A channel carries one section. -/
theorem Carries.unique {self : NetChannel} {a b : Option Section} (ha : Carries self a)
    (hb : Carries self b) : a = b := by
  cases a with
  | none =>
      cases b with
      | none => rfl
      | some t => cases (show self.findSubchannel .waitingToSend = none from ha).symm.trans hb.1
  | some s =>
      obtain ⟨hfind, ⟨stream, queue, hqueue, hdata⟩, hstart, hnum⟩ := ha
      cases b with
      | none => cases hfind.symm.trans hb
      | some t =>
          obtain ⟨hfind', ⟨stream', queue', hqueue', hdata'⟩, hstart', hnum'⟩ := hb
          have hk : s.subchannel = t.subchannel := Option.some.inj (hfind.symm.trans hfind')
          obtain ⟨rfl, -⟩ := List.cons.inj (hqueue.symm.trans hqueue')
          rw [hk] at hstart hnum
          rw [Option.some.injEq, Section.mk.injEq]
          exact ⟨hk, Fragment.ext (hdata.symm.trans hdata') (hstart.trans hstart'.symm)
            (hnum.trans hnum'.symm)⟩

/-- What is written when no error occurs: nothing if no subchannel waits, an empty
section if it waits without a transfer, and else the section that the filled channel carries. -/
theorem writeOutgoingReliableData_ok_cases {self self' : NetChannel} {w w' : BitWriter}
    {sent : Bool}
    (hfile : self.outgoingReliableData 1 = [])
    (h : writeOutgoingReliableData w self = (.ok (sent, w'), self')) :
    (Carries (fillOutgoingSubchannel self).2 none ∧ sent = false ∧ w' = w) ∨
      ((fillOutgoingSubchannel self).2.findSubchannel .waitingToSend ≠ none ∧
        (fillOutgoingSubchannel self).2.outgoingReliableData 0 = [] ∧
        self'.outgoingReliableData 0 = []) ∨
      ∃ s, Carries (fillOutgoingSubchannel self).2 (some s) ∧ sent = true ∧
        w' = ⟨w.bits ++ s.bits⟩ ∧ self' = (fillOutgoingSubchannel self).2.marked s.subchannel := by
  obtain ⟨_, filled, hfill, h⟩ := Method.bind_eq_ok.mp h
  have hnoFile : filled.outgoingReliableData 1 = [] := by
    have hqueue := (fillOutgoingSubchannel_sends.of_eq hfill).later.queues 1
    rwa [hfile, List.map_nil, List.suffix_nil, List.map_eq_nil_iff] at hqueue
  rw [hfill]
  dsimp only
  cases hfind : filled.findSubchannel .waitingToSend with
  | none =>
      simp only [Method.get_bind, hfind, Method.pure_apply, Prod.mk.injEq, Outcome.ok.injEq] at h
      obtain ⟨⟨rfl, rfl⟩, -⟩ := h
      exact .inl ⟨hfind, rfl, rfl⟩
  | some k =>
      have hindex : (k : Nat) < 2 ^ 3 := k.isLt
      simp only [Method.get_bind, hfind, BitWriter.writeOut_of_lt hindex, Method.lift_bind_ok,
        finRange_MAX_STREAMS] at h
      obtain ⟨w₂, last, hloop, h⟩ := Method.bind_eq_ok.mp h
      obtain ⟨⟨rfl, rfl⟩, rfl⟩ := Prod.mk.inj h
      obtain ⟨w₁, marked, hfirst, hloop⟩ := Method.bind_eq_ok.mp hloop
      refine .inr ?_
      cases hqueue : filled.outgoingReliableData 0 with
      | nil =>
          rw [writeStream_of_nil hqueue] at hfirst
          obtain ⟨⟨rfl⟩, rfl⟩ := Prod.mk.inj hfirst
          obtain ⟨w₃, last, hlast, hloop⟩ := Method.bind_eq_ok.mp hloop
          rw [writeStream_of_nil hnoFile] at hlast
          obtain ⟨⟨rfl⟩, rfl⟩ := Prod.mk.inj hlast
          obtain ⟨-, rfl⟩ := Prod.mk.inj hloop
          exact .inl ⟨by simp, rfl, hqueue⟩
      | cons stream queue =>
          rw [writeStream_of_cons hqueue] at hfirst
          cases hfragment : writeFragment filled.configuration
              ((filled.outgoingSubchannels k).startFragment 0)
              ((filled.outgoingSubchannels k).numFragments 0) stream
              ⟨w.bits ++ BitList.ofNat 3 k⟩ with
          | err e => simp [hfragment] at hfirst
          | panic => simp [hfragment] at hfirst
          | ok w₀ =>
              obtain ⟨p, hpdata, hpstart, hpnum, rfl⟩ := exists_fragment hfragment
              simp only [hfragment, Prod.mk.injEq, Outcome.ok.injEq] at hfirst
              obtain ⟨rfl, rfl⟩ := hfirst
              obtain ⟨w₃, last, hlast, hloop⟩ := Method.bind_eq_ok.mp hloop
              rw [writeStream_of_nil
                (show (filled.marked k).outgoingReliableData 1 = [] from hnoFile)]
                at hlast
              obtain ⟨⟨rfl⟩, rfl⟩ := Prod.mk.inj hlast
              obtain ⟨⟨rfl⟩, rfl⟩ := Prod.mk.inj hloop
              refine .inr ⟨⟨k, p⟩, ⟨hfind, ⟨stream, queue, hqueue, hpdata.symm⟩, hpstart, hpnum⟩,
                rfl, ?_, rfl⟩
              simp [Section.bits]

/-- The section that is written is the one that the filled channel carries. -/
theorem writeOutgoingReliableData_eq_ok {self self' : NetChannel} {w w' : BitWriter} {sent : Bool}
    {reliable : Option Section} (hfile : self.outgoingReliableData 1 = [])
    (hcarries : Carries (fillOutgoingSubchannel self).2 reliable)
    (h : writeOutgoingReliableData w self = (.ok (sent, w'), self')) :
    sent = reliable.isSome ∧ w' = ⟨w.bits ++ (reliable.map Section.bits).getD []⟩ := by
  obtain ⟨hnone, rfl, rfl⟩ | ⟨hwaits, hempty, -⟩ | ⟨s, hsome, rfl, rfl, -⟩ :=
    writeOutgoingReliableData_ok_cases hfile h
  · obtain rfl := hcarries.unique hnone
    simp
  · cases reliable with
    | none => exact absurd hcarries hwaits
    | some s =>
        obtain ⟨stream, queue, hqueue, -⟩ := hcarries.2.1
        cases hempty.symm.trans hqueue
  · obtain rfl := hcarries.unique hsome
    simp

variable [Crc]

/-- A packet says what its channel says. -/
theorem writePacket_eq_ok {self self' : NetChannel} {messages : List Message} {bytes : List UInt8}
    {reliable : Option Section} (hfile : self.outgoingReliableData 1 = [])
    (hcarries : Carries (fillOutgoingSubchannel self).2 reliable)
    (hwrite : writePacket messages self = (.ok bytes, self')) :
    bytes = (self.packet reliable messages).bytes ∧ self.outSequenceNr < 2 ^ 32 ∧
      self.inSequenceNr < 2 ^ 32 := by
  have hsteps := hwrite
  unfold writePacket at hsteps
  rw [Method.get_bind] at hsteps
  obtain ⟨w, hheader, hsteps⟩ := Method.lift_bind_eq_ok.mp hsteps
  obtain ⟨hout, hin⟩ := writeHeader_eq_ok hheader
  rw [writeHeader_eq hout hin] at hheader
  obtain rfl := Outcome.ok.inj hheader
  obtain ⟨⟨sent, w⟩, mid, hdata, -⟩ := Method.bind_eq_ok.mp hsteps
  obtain ⟨rfl, rfl⟩ := writeOutgoingReliableData_eq_ok hfile hcarries hdata
  rw [writePacket_of_reliable hout hin hdata] at hwrite
  split at hwrite
  · split at hwrite
    · exact ⟨(Outcome.ok.inj (Prod.mk.inj hwrite).1).symm, hout, hin⟩
    · simp at hwrite
  · simp at hwrite

/-! ## What is read from it -/

/-- A section that continues a transfer, and does not carry its size. -/
def IsContinuation : Option Section → Prop
  | none => False
  | some s => s.fragment.start ≠ 0

instance : (reliable : Option Section) → Decidable (IsContinuation reliable)
  | none => inferInstanceAs (Decidable False)
  | some _ => inferInstanceAs (Decidable (_ ≠ _))

/-- The receiver takes the section, and then has `messages` to hand over: those
of the transfer if it is complete, and none otherwise. -/
def Accepts (self : NetChannel) (messages : List Message) : Option Section → Prop
  | none => messages = []
  | some s => ∃ receivedData, self.opened s.fragment = some receivedData ∧
      Continues receivedData s.fragment ∧ receivedData.filename = none ∧
        if receivedData.ackedFragments + s.fragment.num = fragments s.fragment.data.length then
          readMessages { data := (receivedData.store s.fragment).data, pos := 0 }
            (receivedData.store s.fragment).data.length [] = .ok messages
        else receivedData.ackedFragments + s.fragment.num < fragments s.fragment.data.length ∧
          messages = []

omit [BitstreamIo] [Crc] in
theorem length_varintBits_mod (value : Nat) : (varintBits value).length % 8 = 0 := by
  unfold varintBits
  induction varintBytes (MAX_VARINT_32_BYTES - 1) value with
  | nil => rfl
  | cons group groups ih =>
      rw [List.flatMap_cons, List.length_append, BitList.length_ofNat]
      omega

omit [BitstreamIo] [Crc] in
/-- A section leaves 7 bits over whole bytes, or 3 if it continues a transfer. -/
theorem length_sectionBits_mod (s : Section) :
    s.bits.length % 8 = if IsContinuation (some s) then 3 else 7 := by
  have hvarint := length_varintBits_mod s.fragment.data.length
  simp only [Section.bits, Fragment.bits, Fragment.headerBits, IsContinuation, List.length_append,
    BitList.length_ofNat, BitList.length_ofBytes, List.length_cons, List.length_nil]
  by_cases hsingle : s.fragment.IsSingleBlock
  · simp only [if_pos hsingle, hsingle.start_eq, List.length_append, List.length_cons,
      List.length_nil]
    simp
    omega
  · by_cases hfirst : s.fragment.start = 0
    · simp only [if_neg hsingle, hfirst, MAX_FILE_SIZE_BITS, FRAGMENT_BITS,
        List.length_append, List.length_cons, List.length_nil, BitList.length_ofNat]
      simp
      omega
    · simp only [if_neg hsingle, if_neg hfirst, MAX_FILE_SIZE_BITS, FRAGMENT_BITS,
        List.length_append, List.length_cons, List.length_nil, BitList.length_ofNat]
      simp [hfirst]
      omega

omit [BitstreamIo] [Crc] in
/-- The padding of a packet is too short for a message type, depending on how
many messages are behind which kind of section. -/
theorem padding_body_lt_iff {p : Packet} (hms : ∀ m ∈ p.messages, m.Writable) :
    BitList.padding p.body.length < NETMSG_TYPE_BITS ↔
      p.messages.length % 4 ≠ if IsContinuation p.reliable then 1 else 3 := by
  have hmessages := Message.length_bitsAll_mod hms
  unfold BitList.padding NETMSG_TYPE_BITS
  cases hreliable : p.reliable with
  | none =>
      rw [if_neg (show ¬ IsContinuation none from id)]
      simp only [Packet.body, hreliable, Option.map_none, Option.getD_none, List.nil_append]
      omega
  | some s =>
      have hsection := length_sectionBits_mod s
      simp only [Packet.body, hreliable, Option.map_some, Option.getD_some, List.length_append]
      split at hsection <;> rename_i h <;> simp only [h, if_true, if_false] <;> omega

/-! ## The header at the receiver -/

/-- `self'` has the incoming transfers of `self`, and transfers of the same
bytes at the front of its queues. -/
def SameTransfers (self self' : NetChannel) : Prop :=
  self'.incomingReliableData = self.incomingReliableData ∧
    ∀ i, (self'.outgoingReliableData i).head?.map (·.data) =
      (self.outgoingReliableData i).head?.map (·.data)

omit [BitstreamIo] [Crc] in
theorem updateOutgoingSubchannels_sameTransfers (self : NetChannel) (sequenceAck : Nat)
    (acked : BitVec 8) :
    Keeps (SameTransfers self) (updateOutgoingSubchannels sequenceAck acked) := by
  have hset : ∀ k subchannel, Keeps (SameTransfers self)
      (modify (·.setSubchannel k subchannel) : Method NetChannel Error PUnit) := fun _ _ =>
    Keeps.modify fun _ h => h
  have hstream : ∀ subchannel i, Keeps (SameTransfers self) (ackStream subchannel i) := by
    intro subchannel i
    refine Keeps.ite (Keeps.pure _) (Triple.get_bind fun s h => ?_)
    cases hqueue : s.outgoingReliableData i with
    | nil => exact Triple.fail fun s hs => hs ▸ h
    | cons stream queue =>
        refine Triple.lift_bind (fun _ => ?_) fun _ s hs => hs ▸ h
        refine Triple.lift_bind (fun _ => ?_) fun _ s hs => hs ▸ h
        refine Triple.modify fun s hs => ?_
        subst hs
        refine ⟨h.1, fun j => ?_⟩
        rw [← h.2 j]
        by_cases hj : j = i
        · subst hj
          simp [hqueue]
        · simp [hj]
  refine Keeps.forM (fun k => Keeps.bind Keeps.get fun c => ?_) _
  refine Keeps.ite (Keeps.ite (Keeps.fail _) (Keeps.ite ?_ (Keeps.pure _)))
    (Keeps.ite (Keeps.ite (Keeps.fail _) (Keeps.ite (hset _ _) (Keeps.pure _))) (Keeps.pure _))
  exact Keeps.bind (Keeps.forM (hstream _) _) fun _ => hset _ _

/-- The size of the transfer at the front of stream `i` can be rounded up to
fragments in a `u32`. -/
def Fits (self : NetChannel) (i : Fin MAX_STREAMS) : Prop :=
  ∀ data ∈ (self.outgoingReliableData i).head?.map (·.data), data.length + 256 < 2 ^ 32

omit [BitstreamIo] [Crc] in
theorem popCompletedOutgoingTransfer_of_fits {self : NetChannel} {i : Fin MAX_STREAMS}
    (h : Fits self i) : ∃ self', popCompletedOutgoingTransfer i self = (.ok (), self') ∧
      self'.incomingReliableData = self.incomingReliableData ∧
      ∀ j, j ≠ i → self'.outgoingReliableData j = self.outgoingReliableData j := by
  simp only [popCompletedOutgoingTransfer, Method.get_bind]
  cases hqueue : self.outgoingReliableData i with
  | nil => exact ⟨self, rfl, rfl, fun _ _ => rfl⟩
  | cons stream queue =>
      have htotal : stream.totalFragments = .ok (fragments stream.data.length) :=
        bytesToFragments_of_lt (h stream.data (by simp [hqueue]))
      simp only [htotal, Method.lift_bind_ok]
      split
      · exact ⟨_, rfl, rfl, fun j hj => by simp [hj]⟩
      · exact ⟨self, rfl, rfl, fun _ _ => rfl⟩

omit [BitstreamIo] [Crc] in
theorem popCompletedOutgoingTransfer_of_not_fits {self : NetChannel} {i : Fin MAX_STREAMS}
    (h : ¬ Fits self i) : popCompletedOutgoingTransfer i self = (.panic, self) := by
  simp only [popCompletedOutgoingTransfer, Method.get_bind]
  cases hqueue : self.outgoingReliableData i with
  | nil => exact absurd (by simp [Fits, hqueue]) h
  | cons stream queue =>
      have hlong : 2 ^ 32 ≤ stream.data.length + 256 :=
        Nat.not_lt.mp fun hlt => h (by simpa [Fits, hqueue] using hlt)
      have htotal : stream.totalFragments = .panic := bytesToFragments_of_le hlong
      simp only [htotal, Method.lift_bind_panic]

omit [BitstreamIo] [Crc] in
/-- Popping panics on a front transfer that does not fit, and leaves the
incoming transfers alone otherwise. -/
theorem popCompletedOutgoingTransfers_cases (self : NetChannel) :
    ((∀ i, Fits self i) ∧ ∃ self', popCompletedOutgoingTransfers self = (.ok (), self') ∧
      self'.incomingReliableData = self.incomingReliableData) ∨
    (¬ ∀ i, Fits self i) ∧ ∃ self', popCompletedOutgoingTransfers self = (.panic, self') := by
  unfold popCompletedOutgoingTransfers
  rw [finRange_MAX_STREAMS]
  by_cases h₀ : Fits self 0
  · obtain ⟨mid, hmid, hincoming, hother⟩ := popCompletedOutgoingTransfer_of_fits h₀
    have hfits : Fits mid 1 ↔ Fits self 1 := by rw [Fits, Fits, hother 1 (by decide)]
    rw [Method.forM_cons_ok hmid]
    by_cases h₁ : Fits self 1
    · obtain ⟨self', hself', hincoming', -⟩ := popCompletedOutgoingTransfer_of_fits (hfits.mpr h₁)
      refine .inl ⟨fun i => ?_, self', Method.forM_cons_ok hself', hincoming'.trans hincoming⟩
      fin_cases i
      exacts [h₀, h₁]
    · refine .inr ⟨fun h => h₁ (h 1), mid, ?_⟩
      exact Method.bind_panic (popCompletedOutgoingTransfer_of_not_fits (mt hfits.mp h₁))
  · exact .inr ⟨fun h => h₀ (h 0), self,
      Method.bind_panic (popCompletedOutgoingTransfer_of_not_fits h₀)⟩

omit [BitstreamIo] [Crc] in
/-- A packet with the next sequence number is accepted as far as its
acknowledgement is. -/
theorem acceptSequence_of_next {self : NetChannel} {sequence sequenceAck : Nat} {acked : BitVec 8}
    (hsequence : self.inSequenceNr + 1 = sequence) (hlt : sequence < 2 ^ 32)
    (hupdate : (updateOutgoingSubchannels sequenceAck acked self).1 = .ok ()) :
    ((∀ i, Fits self i) ∧ ∃ self', acceptSequence sequence sequenceAck acked.toNat 0 self =
      (.ok (), self') ∧ self'.incomingReliableData = self.incomingReliableData) ∨
    (¬ ∀ i, Fits self i) ∧ ∃ self', acceptSequence sequence sequenceAck acked.toNat 0 self =
      (.panic, self') := by
  obtain ⟨mid, hmid⟩ : ∃ mid, updateOutgoingSubchannels sequenceAck acked self = (.ok (), mid) :=
    ⟨_, Prod.ext hupdate rfl⟩
  obtain ⟨hincoming, hheads⟩ :=
    (updateOutgoingSubchannels_sameTransfers self sequenceAck acked).of_ok
    ⟨rfl, fun _ => rfl⟩ hmid
  have haccept : acceptSequence sequence sequenceAck acked.toNat 0 self =
      popCompletedOutgoingTransfers
        { mid with inSequenceNr := sequence, outSequenceNrAck := sequenceAck } := by
    rw [acceptSequence_eq hlt, if_neg (by omega), if_neg (by omega), Method.bind_ok hmid]
    rfl
  have hfits :
      (∀ i, Fits { mid with inSequenceNr := sequence, outSequenceNrAck := sequenceAck } i) ↔
      ∀ i, Fits self i :=
    forall_congr' fun i => by rw [Fits, Fits, hheads i]
  rw [haccept]
  obtain ⟨h, self', hself', hincoming'⟩ | ⟨h, self', hself'⟩ := popCompletedOutgoingTransfers_cases
    { mid with inSequenceNr := sequence, outSequenceNrAck := sequenceAck }
  · exact .inl ⟨hfits.mp h, self', hself', hincoming'.trans hincoming⟩
  · exact .inr ⟨mt hfits.mpr h, self', hself'⟩

omit [Crc] in
/-- Stream 0 of a channel that has taken an accepted section hands over the
messages of the section. -/
theorem handover_of_accepts {self : NetChannel} {s : Section} {messages : List Message}
    (h : Accepts self messages (some s)) :
    ∃ receivedData, self.opened s.fragment = some receivedData ∧
      Continues receivedData s.fragment ∧
      handover (some (receivedData.store s.fragment)) = .ok messages := by
  obtain ⟨receivedData, hslot, hcontinues, hfile, hmessages⟩ := h
  have hname : (receivedData.store s.fragment).filename = none := hfile
  have hacked : (receivedData.store s.fragment).ackedFragments =
      receivedData.ackedFragments + s.fragment.num := rfl
  refine ⟨receivedData, hslot, hcontinues, ?_⟩
  simp only [handover, hcontinues.totalFragments_store, hacked, hname, Outcome.ok_bind]
  split at hmessages
  case isTrue hcomplete =>
    rw [if_neg hcomplete.not_lt, if_neg hcomplete.not_gt]
    exact hmessages
  case isFalse =>
    obtain ⟨hlt, rfl⟩ := hmessages
    rw [if_pos hlt]

omit [Crc] in
/-- An accepted section is read.  The messages of its transfer are followed by
what stream 1 hands over. -/
theorem readReliableSection_of_accepts {self : NetChannel} {s : Section} {r : BitReader}
    {tl : List Bool} {messages : List Message} (hr : r.rest = s.bits ++ tl)
    (h : Accepts self messages (some s)) :
    (readReliableSection r self).1 = (do
      let second ← handover (self.incomingReliableData 1)
      pure (messages ++ second, r.skip s.bits.length)) := by
  obtain ⟨receivedData, hslot, hcontinues, hzero⟩ := handover_of_accepts h
  obtain ⟨last, hall, -⟩ := readAllReliableMessages_eq_handover (self.taken s receivedData)
  rw [taken_incoming_zero, taken_incoming_one, hzero, Outcome.ok_bind] at hall
  rw [readReliableSection_eq hr hslot hcontinues, Method.bind_apply, hall]
  cases handover (self.incomingReliableData 1) <;> rfl

omit [Crc] in
/-- With a quiet file stream only the transfer of the section is handed over. -/
theorem readReliableSection_of_quiet {self : NetChannel} {s : Section} {r : BitReader}
    {tl : List Bool} {messages : List Message} (hr : r.rest = s.bits ++ tl)
    (h : Accepts self messages (some s)) (hquiet : Quiet (self.incomingReliableData 1)) :
    readReliableSection r self =
      (.ok (messages, r.skip s.bits.length), self.afterSection (some s)) := by
  obtain ⟨receivedData, hslot, hcontinues, hfile, hmessages⟩ := h
  have htotal := hcontinues.totalFragments_store
  rw [readReliableSection_eq hr hslot hcontinues]
  simp only [afterSection, hslot, continued]
  split at hmessages
  case isTrue hcomplete =>
    have hzero := readReliableMessages_of_complete (taken_incoming_zero self s receivedData)
      (htotal.trans (congrArg Outcome.ok hcomplete.symm)) hfile []
    rw [hmessages] at hzero
    have hall := readAllReliableMessages_of_quiet hzero (by simpa [setIncoming] using hquiet)
    rw [if_pos hcomplete, Method.bind_ok hall, Method.pure_apply]
  case isFalse hmore =>
    obtain ⟨hlt, rfl⟩ := hmessages
    have hincomplete : Quiet ((self.taken s receivedData).incomingReliableData 0) := by
      intro d hd
      obtain rfl : receivedData.store s.fragment = d := by simpa using hd
      exact ⟨_, htotal, hlt⟩
    have hall := readAllReliableMessages_of_quiet (readReliableMessages_of_quiet hincomplete [])
      (by simpa using hquiet)
    rw [if_neg hmore, Method.bind_ok hall, Method.pure_apply]

omit [Crc] in
theorem Accepts.congr {self self' : NetChannel} {messages : List Message}
    {reliable : Option Section}
    (h : Accepts self messages reliable)
    (hincoming : self'.incomingReliableData = self.incomingReliableData) :
    Accepts self' messages reliable := by
  cases reliable with
  | none => exact h
  | some s => simpa only [Accepts, opened, hincoming] using h

/-- The reader behind the section of a packet. -/
def behindSection (p : Packet) : BitReader :=
  BitReader.skip { data := p.bytes, pos := 128 } ((p.reliable.map Section.bits).getD []).length

/-- Behind an accepted header and an accepted section are the messages, and in
front of them is what the streams hand over: those of the packet's own
transfer, and behind a section what has been left in stream 1. -/
theorem readPacket_of_accepts {self mid : NetChannel} {p : Packet} {completed : List Message}
    (hheader : readHeader { data := p.bytes, pos := 0 } p.bytes self =
      (.ok (p.flags, { data := p.bytes, pos := 128 }), mid))
    (h : Accepts mid completed p.reliable) :
    (readPacket p.bytes self).1 = (do
      let second ← (if p.reliable.isSome then handover (mid.incomingReliableData 1) else .ok [] :
        Result _)
      readMessages (behindSection p) p.bytes.length (completed ++ second)) := by
  have hrest := p.rest_body
  have hflags := p.flags_contains_reliable
  rw [readPacket, Method.bind_ok hheader]
  cases hreliable : p.reliable with
  | none =>
      rw [hreliable] at h hflags
      obtain rfl : completed = [] := h
      rw [Option.isSome_none] at hflags
      simp only [hflags, Bool.false_eq_true, if_false, Method.lift_apply, behindSection, hreliable,
        Option.map_none, Option.getD_none, List.length_nil, BitReader.skip_zero, Option.isSome_none,
        Outcome.ok_bind, List.append_nil]
  | some s =>
      rw [hreliable] at h hflags
      rw [Option.isSome_some] at hflags
      simp only [BitList.align, Packet.body, hreliable, Option.map_some, Option.getD_some,
        List.append_assoc] at hrest
      have hsection := readReliableSection_of_accepts hrest h
      simp only [hflags, if_true, Option.isSome_some, behindSection, hreliable, Option.map_some,
        Option.getD_some]
      rw [Method.bind_apply]
      revert hsection
      obtain ⟨o, later⟩ := readReliableSection { data := p.bytes, pos := 128 } mid
      rintro rfl
      cases handover (mid.incomingReliableData 1) <;> rfl

/-- With a quiet file stream the messages of the transfer come right in front
of those of the packet. -/
theorem readPacket_of_quiet {self mid : NetChannel} {p : Packet} {completed : List Message}
    (hheader : readHeader { data := p.bytes, pos := 0 } p.bytes self =
      (.ok (p.flags, { data := p.bytes, pos := 128 }), mid))
    (h : Accepts mid completed p.reliable) (hquiet : Quiet (mid.incomingReliableData 1)) :
    readPacket p.bytes self =
      (readMessages (behindSection p) p.bytes.length completed, mid.afterSection p.reliable) := by
  have hrest := p.rest_body
  rw [readPacket, Method.bind_ok hheader]
  cases hreliable : p.reliable with
  | none =>
      rw [hreliable] at h
      obtain rfl : completed = [] := h
      have hflags := p.flags_contains_reliable
      rw [hreliable, Option.isSome_none] at hflags
      simp only [hflags, Bool.false_eq_true, if_false, Method.lift_apply, afterSection,
        behindSection,
        hreliable, Option.map_none, Option.getD_none, List.length_nil, BitReader.skip_zero]
  | some s =>
      rw [hreliable] at h
      have hflags := p.flags_contains_reliable
      rw [hreliable, Option.isSome_some] at hflags
      simp only [BitList.align, Packet.body, hreliable, Option.map_some, Option.getD_some,
        List.append_assoc] at hrest
      simp only [hflags, if_true]
      rw [Method.bind_ok (readReliableSection_of_quiet hrest h hquiet), Method.lift_apply,
        behindSection, hreliable, Option.map_some, Option.getD_some]

/-- A section of a transfer that was not opened ends the packet. -/
theorem readPacket_of_not_opened {self mid : NetChannel} {p : Packet} {s : Section}
    (hheader : readHeader { data := p.bytes, pos := 0 } p.bytes self =
      (.ok (p.flags, { data := p.bytes, pos := 128 }), mid))
    (hreliable : p.reliable = some s) (hslot : mid.opened s.fragment = none) :
    readPacket p.bytes self = (.err .noActiveSubchannelData, mid.afterSection p.reliable) := by
  have hrest := p.rest_body
  have hflags := p.flags_contains_reliable
  rw [hreliable, Option.isSome_some] at hflags
  simp only [BitList.align, Packet.body, hreliable, Option.map_some, Option.getD_some,
    List.append_assoc] at hrest
  rw [readPacket, Method.bind_ok hheader]
  simp only [hflags, if_true, hreliable, afterSection, hslot]
  rw [Method.bind_err (readReliableSection_of_none hrest hslot)]

/-- The messages behind the section are read up to the padding. -/
theorem readMessages_behind {p : Packet} (hms : ∀ m ∈ p.messages, m.Textual)
    (completed : List Message) :
    readMessages (behindSection p) p.bytes.length completed =
      if BitList.padding p.body.length < NETMSG_TYPE_BITS then .ok (completed ++ p.messages)
      else .err (.unhandledMessageType 0) := by
  have hrest := p.rest_body
  have hbounds : BitReader.InBounds { data := p.bytes, pos := 128 } := by
    have := p.length_bytes
    simp only [BitReader.InBounds]
    omega
  rw [BitList.align, Packet.body, List.append_assoc] at hrest
  have hread : readMessages (behindSection p) (behindSection p).data.length completed = _ :=
    readMessages_padded hms (BitReader.rest_skip_of_append hrest) (hbounds.skip hrest)
  exact hread

/-- What is read behind the section are the messages of the grammar. -/
theorem readMessages_behind_eq_ok_iff {p : Packet} {messages : List Message} :
    readMessages (behindSection p) p.bytes.length [] = .ok messages ↔
      Message.AreMessages (behindSection p).rest messages := by
  have hrest := p.rest_body
  have hbounds : BitReader.InBounds { data := p.bytes, pos := 128 } := by
    have := p.length_bytes
    simp only [BitReader.InBounds]
    omega
  rw [BitList.align, Packet.body, List.append_assoc] at hrest
  exact readMessages_eq_ok_iff (r := behindSection p) (hbounds.skip hrest)

/-- The round trip of a packet.  The receiver, whose next packet this is and
which accepts its acknowledgement and its section, returns the messages of the
completed transfer and then those of the packet, exactly when the zero bits
that pad the packet are too few for a message type (the number of messages is
not 3 modulo 4, or not 1 modulo 4 behind a section that continues a transfer),
its own front transfers are small enough to be counted, and, if there is a
section, stream 1 has no messages left to hand over. -/
theorem readPacket_writePacket_iff {challenge : BitVec 32} {configuration : Configuration}
    {calls : List Call} {a a' b : NetChannel} {ms completed : List Message} {bytes : List UInt8}
    {reliable : Option Section} (hrun : run (new challenge configuration) calls = some a)
    (hms : ∀ m ∈ ms, m.Textual) (hwrite : writePacket ms a = (.ok bytes, a'))
    (hcarries : Carries (fillOutgoingSubchannel a).2 reliable)
    (hchallenge : b.challenge = a.challenge) (hsequence : b.inSequenceNr + 1 = a.outSequenceNr)
    (hupdate : (updateOutgoingSubchannels a.inSequenceNr a.inReliableState
      { b with hasSeenChallenge := true }).1 = .ok ())
    (haccepts : Accepts b completed reliable) :
    (readPacket bytes b).1 = .ok (completed ++ ms) ↔
      ms.length % 4 ≠ (if IsContinuation reliable then 1 else 3) ∧ (∀ i, Fits b i) ∧
        (reliable.isSome → Yields (b.incomingReliableData 1) []) := by
  obtain ⟨rfl, hout, hin⟩ := writePacket_eq_ok (run_file hrun) hcarries hwrite
  have hwritable : ∀ m ∈ ms, m.Writable := fun m hm => (hms m hm).writable
  have hheader : readHeader { data := (a.packet reliable ms).bytes, pos := 0 }
      (a.packet reliable ms).bytes b = _ := readHeader_bytes hout hin hchallenge.symm
  have hpadding : _ ↔ ms.length % 4 ≠ if IsContinuation reliable then 1 else 3 :=
    padding_body_lt_iff (p := a.packet reliable ms) hwritable
  have hfits : (∀ i, Fits { b with hasSeenChallenge := true } i) ↔ ∀ i, Fits b i := Iff.rfl
  have hnext : ({ b with hasSeenChallenge := true } : NetChannel).inSequenceNr + 1 =
      a.outSequenceNr := hsequence
  obtain ⟨hfit, self', haccept, hincoming⟩ | ⟨hfit, self', hpanic⟩ :=
    acceptSequence_of_next hnext hout hupdate
  · have hheader' : readHeader { data := (a.packet reliable ms).bytes, pos := 0 }
        (a.packet reliable ms).bytes b =
        (.ok ((a.packet reliable ms).flags, { data := (a.packet reliable ms).bytes, pos := 128 }),
          self') := hheader.trans (Method.bind_ok haccept)
    have hslots : self'.incomingReliableData = b.incomingReliableData := hincoming.trans rfl
    have hbody := readPacket_of_accepts (p := a.packet reliable ms) hheader'
      (haccepts.congr hslots)
    have hbehind := readMessages_behind (p := a.packet reliable ms) hms
    have hfit' := hfits.mp hfit
    rw [hbody, hslots, ← hpadding, and_iff_right hfit', Outcome.bind_eq_ok]
    constructor
    · rintro ⟨second, hsecond, hread⟩
      rw [hbehind] at hread
      split at hread
      case isTrue hshort =>
        have hmore : completed ++ second ++ ms = completed ++ ms := Outcome.ok.inj hread
        obtain rfl : second = [] := by simpa using hmore
        refine ⟨hshort, fun hsome => handover_eq_ok_iff.mp ?_⟩
        rwa [if_pos (show (a.packet reliable ms).reliable.isSome from hsome)] at hsecond
      case isFalse => cases hread
    · rintro ⟨hshort, hyields⟩
      refine ⟨[], ?_, by rw [hbehind, if_pos hshort, List.append_nil]; rfl⟩
      split
      · exact handover_eq_ok_iff.mpr (hyields ‹_›)
      · rfl
  · have hheader' : readHeader { data := (a.packet reliable ms).bytes, pos := 0 }
        (a.packet reliable ms).bytes b = (.panic, self') := hheader.trans (Method.bind_panic hpanic)
    rw [readPacket, Method.bind_panic hheader']
    simp [mt hfits.mpr hfit]

end

theorem carries_fresh : Carries (fillOutgoingSubchannel fresh).2 none := by
  unfold Carries
  decide +kernel

theorem readPacket_writePacket_print :
    (readPacket [1, 0, 0, 0, 0, 0, 0, 0, 32, 128, 63, 0, 5, 0, 0, 0, 7, 30, 0] fresh).1 =
        .ok ([] ++ [.print ⟨"x"⟩]) ↔
      [Message.print ⟨"x"⟩].length % 4 ≠ (if IsContinuation none then 1 else 3) ∧
        (∀ i, Fits fresh i) ∧
          ((none : Option Section).isSome → Yields (fresh.incomingReliableData 1) []) := by
  have hwrite : writePacket [.print ⟨"x"⟩] fresh =
      (.ok [1, 0, 0, 0, 0, 0, 0, 0, 32, 128, 63, 0, 5, 0, 0, 0, 7, 30, 0],
        (writePacket [.print ⟨"x"⟩] fresh).2) := Prod.ext (by decide +kernel) rfl
  have hrun : run (new 5#32 Configuration.loadDefault) [] = some fresh := rfl
  have hupdate : (updateOutgoingSubchannels fresh.inSequenceNr fresh.inReliableState
      { fresh with hasSeenChallenge := true }).1 = .ok () := by decide +kernel
  have haccepts : Accepts fresh [] none := rfl
  exact readPacket_writePacket_iff hrun (by decide) hwrite carries_fresh rfl rfl hupdate haccepts

/-- Three messages are written by a channel that has not talked yet, and refused
by another. -/
theorem readPacket_three_prints :
    (∀ m ∈ List.replicate 3 (Message.print ⟨"x"⟩), m.Textual) ∧
      Carries (fillOutgoingSubchannel fresh).2 none ∧
      fresh.inSequenceNr + 1 = fresh.outSequenceNr ∧
      (updateOutgoingSubchannels fresh.inSequenceNr fresh.inReliableState
        { fresh with hasSeenChallenge := true }).1 = .ok () ∧
      ∃ bytes, (writePacket (List.replicate 3 (.print ⟨"x"⟩)) fresh).1 = .ok bytes ∧
        (readPacket bytes fresh).1 = .err (.unhandledMessageType 0) :=
  ⟨by decide, carries_fresh, rfl, by decide +kernel,
    [1, 0, 0, 0, 0, 0, 0, 0, 32, 76, 240, 0, 5, 0, 0, 0, 7, 30, 192, 129, 7, 112, 224, 1, 0],
    by decide +kernel, by decide +kernel⟩

end NetChannel

end QuickplayServer
