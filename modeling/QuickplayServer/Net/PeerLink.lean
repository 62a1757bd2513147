import QuickplayServer.Lib.ToggleLink
import QuickplayServer.Net.Exchange
import QuickplayServer.Net.Peers

/-!
# QuickplayServer.Net.PeerLink

Each direction between two parties is a `ToggleLink`: the subchannels of the
sender are its slots, the reliable states of the two channels its bits, and
the packets of the receiver its acknowledgements (`Peers.link`).

A step of the parties is a step of both links (`link_write`, `link_read`), so
both stay in the invariant of `ToggleLink`.  In particular no acknowledgement
is ever rejected.
-/

namespace QuickplayServer

open SubChannelState

/-! ## Filling -/

namespace NetChannel

/-- The subchannel that is filled next. -/
def fillable (self : NetChannel) : Option (Fin MAX_SUBCHANNELS) :=
  match self.findSubchannel free, self.outgoingReliableData 0 with
  | some k, stream :: _ =>
      if stream.sentFragments = fragments stream.data.length then none else some k
  | _, _ => none

/-- A channel with nothing to give to a subchannel is filled already. -/
theorem filled_of_none {self : NetChannel} (h : self.fillable = none) : self.filled = self := by
  unfold fillable at h
  unfold filled
  split
  case h_1 k stream queue hfind hqueue =>
    rw [hfind, hqueue] at h
    simp only [ite_eq_left_iff, reduceCtorEq, imp_false, not_not] at h
    rw [if_pos h]
  case h_2 => rfl

/-- Filling gives the lowest free subchannel the next fragments of the front
transfer, as many as a packet has room for. -/
theorem filled_of_some {self : NetChannel} {k : Fin MAX_SUBCHANNELS} (h : self.fillable = some k) :
    ∃ stream queue, self.outgoingReliableData 0 = stream :: queue ∧
      self.findSubchannel free = some k ∧ stream.sentFragments ≠ fragments stream.data.length ∧
      self.filled = self.fill k stream queue
        (min self.maxFragments (fragments stream.data.length - stream.sentFragments)) := by
  unfold fillable at h
  unfold filled
  split at h
  case h_1 l stream queue hfind hqueue =>
    split at h
    case isTrue => cases h
    case isFalse hsent =>
      obtain rfl := Option.some.inj h
      refine ⟨stream, queue, hqueue, hfind, hsent, ?_⟩
      simp only [hfind, hqueue, if_neg hsent]
  case h_2 => cases h

/-- The filled subchannel waits to be sent, and its bit is toggled. -/
theorem filled_subchannel {self : NetChannel} (k : Fin MAX_SUBCHANNELS) :
    if self.fillable = some k then
      (self.outgoingSubchannels k).state = free ∧
        (self.filled.outgoingSubchannels k).state = waitingToSend ∧
        self.filled.outReliableState.getLsbD k = !(self.outReliableState.getLsbD k)
    else self.filled.outgoingSubchannels k = self.outgoingSubchannels k ∧
      self.filled.outReliableState.getLsbD k = self.outReliableState.getLsbD k := by
  cases hfillable : self.fillable with
  | none =>
      rw [filled_of_none hfillable]
      simp
  | some l =>
      obtain ⟨stream, queue, hqueue, hfind, hsent, hfilled⟩ := filled_of_some hfillable
      rw [hfilled, fill_outgoingSubchannels]
      have hbit := getLsbD_xor_mask self.outReliableState l k
      by_cases hkl : k = l
      · subst hkl
        rw [if_pos rfl] at hbit ⊢
        exact ⟨findSubchannel_eq_some hfind, by simp, hbit⟩
      · have hne : ¬ some l = some k := fun heq => hkl (Option.some.inj heq).symm
        rw [if_neg hkl] at hbit
        rw [if_neg hne, Function.update_of_ne hkl]
        exact ⟨rfl, hbit⟩

end NetChannel

/-! ## The link of a direction -/

namespace SubChannel

/-- The subchannel as a slot. -/
def slot (self : SubChannel) : Slot :=
  match self.state with
  | free => .free
  | waitingToSend => .ready
  | waitingForAck => .sent self.sendSeqNr.toNat

/-- The sequence number is that of a packet if the subchannel was sent, and
older than all packets if it is free. -/
def Dated (subchannel : SubChannel) : Prop :=
  match subchannel.state with
  | free => subchannel.sendSeqNr = -1
  | waitingToSend => True
  | waitingForAck => 0 ≤ subchannel.sendSeqNr

variable {subchannel : SubChannel}

/-- A slot of the link is free exactly if the subchannel is. -/
theorem slot_eq_free : subchannel.slot = .free ↔ subchannel.state = free := by
  unfold slot
  split <;> simp [*]

/-- A slot of the link is ready exactly if the subchannel waits to be sent. -/
theorem slot_eq_ready : subchannel.slot = .ready ↔ subchannel.state = waitingToSend := by
  unfold slot
  split <;> simp [*]

/-- A subchannel that waits for an acknowledgement is a slot that was sent with the
number of its last packet. -/
theorem slot_of_waitingForAck (h : subchannel.state = waitingForAck) :
    subchannel.slot = .sent subchannel.sendSeqNr.toNat := by
  simp only [slot, h]

/-- A subchannel that is freed or marked for resending has no packet in flight that
it waits for, so its number says nothing any more. -/
theorem Dated.settle (h : subchannel.Dated) (agrees : Bool) (sequenceAck : Nat) :
    (subchannel.settle agrees sequenceAck).Dated := by
  unfold SubChannel.settle
  split
  · split
    · exact rfl
    · split
      · trivial
      · exact h
  · exact h

/-- An acknowledgement does the same to a subchannel and to its slot. -/
theorem Dated.slot_settle (h : subchannel.Dated) (agrees : Bool) (sequenceAck : Nat) :
    (subchannel.settle agrees sequenceAck).slot =
      match subchannel.slot with
      | .sent s => if agrees then .free else if s ≤ sequenceAck then .ready else .sent s
      | slot => slot := by
  cases hstate : subchannel.state with
  | free => simp [SubChannel.settle, slot, hstate]
  | waitingToSend => simp [SubChannel.settle, slot, hstate]
  | waitingForAck =>
      have hseq : 0 ≤ subchannel.sendSeqNr := by simpa only [Dated, hstate] using h
      simp only [SubChannel.settle, slot_of_waitingForAck hstate, hstate, if_true]
      cases agrees with
      | true => simp [slot, newFree]
      | false =>
          by_cases hle : subchannel.sendSeqNr ≤ sequenceAck
          · have hle' : subchannel.sendSeqNr.toNat ≤ sequenceAck := by omega
            simp [hle, hle', slot]
          · have hle' : ¬ subchannel.sendSeqNr.toNat ≤ sequenceAck := by omega
            simp [hle, hle', slot, hstate]

end SubChannel

namespace Datagram

def frame (self : Datagram) : Frame (Fin MAX_SUBCHANNELS) := ⟨self.sequence, self.carried⟩

def ack (self : Datagram) : Ack (Fin MAX_SUBCHANNELS) :=
  ⟨self.sequence, self.sequenceAck, fun k => self.reliableState.getLsbD k⟩

/-- The bytes are those of the packet `p`, as the record says. -/
structure Writes (datagram : Datagram) (c : BitVec 32) [Crc] (p : Packet) : Prop where
  bytes : datagram.bytes = p.bytes
  sequence : p.sequence = datagram.sequence
  sequenceAck : p.sequenceAck = datagram.sequenceAck
  reliableState : p.reliableState = datagram.reliableState
  challenge : p.challenge = c
  carried : datagram.carried.map Prod.fst = p.reliable.map (·.subchannel)

end Datagram

namespace Peer

/-- The direction from `sender` to `receiver`. -/
def linkTo (sender receiver : Peer) : ToggleLink (Fin MAX_SUBCHANNELS) where
  next := sender.channel.outSequenceNr
  bit k := sender.channel.outReliableState.getLsbD k
  slot k := (sender.channel.outgoingSubchannels k).slot
  filling := sender.fillings
  ackSeen := sender.channel.inSequenceNr
  seen := receiver.channel.inSequenceNr
  rbit k := receiver.channel.inReliableState.getLsbD k
  kept := receiver.accepted
  frames := sender.written.map Datagram.frame
  acks := receiver.written.map Datagram.ack

/-- A party that follows the protocol. -/
structure Sound (c : BitVec 32) [Crc] (peer : Peer) : Prop where
  books : Bookkeeping peer.channel
  few : peer.channel.maxFragments < 8
  numbered : peer.channel.Numbered
  challenge : peer.channel.challenge = c
  dated : ∀ k, (peer.channel.outgoingSubchannels k).Dated
  written : ∀ d ∈ peer.written, d.sequence < 2 ^ 32 ∧ d.sequenceAck < 2 ^ 32 ∧ ∃ p, d.Writes c p

end Peer

/-! ## Writing -/

/-- Filling and sending change the front transfer, the subchannels and their state
bits, and nothing else. -/
theorem NetChannel.sent_filled_others (self : NetChannel) (reliable : Option Section) :
    self.filled.sent reliable = { self with
      outgoingReliableData := (self.filled.sent reliable).outgoingReliableData
      outReliableState := (self.filled.sent reliable).outReliableState
      outgoingSubchannels := (self.filled.sent reliable).outgoingSubchannels } := by
  cases reliable with
  | none => exact self.filled_others
  | some s =>
      simp only [sent, marked, setSubchannel]
      rw [filled_others]

namespace Peer

/-- The party after it filled a subchannel. -/
def refill (self : Peer) : Peer :=
  { self with channel := self.channel.filled, fillings := self.refilled self.channel.filled }

/-- The party after it put `reliable` into a packet. -/
def mark (self : Peer) (reliable : Option Section) : Peer :=
  { self with channel := self.channel.sent reliable }

/-- The packet with `reliable` in it. -/
def datagram [Crc] (self : Peer) (reliable : Option Section) (messages : List Message) :
    Datagram where
  bytes := (self.channel.packet reliable messages).bytes
  sequence := self.channel.outSequenceNr
  sequenceAck := self.channel.inSequenceNr
  reliableState := self.channel.inReliableState
  carried := reliable.map fun s => (s.subchannel, self.fillings s.subchannel)

/-- The party after it wrote the packet with `reliable` in it. -/
def emit [Crc] (self : Peer) (reliable : Option Section) (messages : List Message) : Peer :=
  { self with
    channel := { self.channel with outSequenceNr := self.channel.outSequenceNr + 1 }
    written := self.written ++ [self.datagram reliable messages] }

variable {peer peer' other : Peer} {c : BitVec 32}

/-- A subchannel that is filled is a slot of the link that is filled; without one
the link stays. -/
theorem linkTo_refill : peer.refill.linkTo other =
    match peer.channel.fillable with
    | none => peer.linkTo other
    | some k => (peer.linkTo other).fill k := by
  cases hfillable : peer.channel.fillable with
  | none =>
      have hfilled := NetChannel.filled_of_none hfillable
      have hrefilled : peer.refilled peer.channel = peer.fillings := by
        funext k
        simp [refilled]
      simp only [refill, hfilled, hrefilled]
  | some k =>
      have hsub := fun l => peer.channel.filled_subchannel l
      simp only [hfillable, Option.some.injEq] at hsub
      have hself := hsub k
      rw [if_pos rfl] at hself
      obtain ⟨hfree, hready, hbit⟩ := hself
      have hother : ∀ l, l ≠ k → _ := fun l hl => if_neg (Ne.symm hl) ▸ hsub l
      refine ToggleLink.ext peer.channel.filled_outSequenceNr ?bit ?slot ?filling
        (by rw [linkTo, refill, NetChannel.filled_others]; rfl) rfl rfl rfl rfl rfl
      case bit =>
        funext l
        by_cases hl : l = k
        · subst hl
          simpa [linkTo, refill, ToggleLink.fill] using hbit
        · simpa [linkTo, refill, ToggleLink.fill, hl] using (hother l hl).2
      case slot =>
        funext l
        by_cases hl : l = k
        · subst hl
          simpa [linkTo, refill, ToggleLink.fill] using SubChannel.slot_eq_ready.mpr hready
        · simp [linkTo, refill, ToggleLink.fill, hl, (hother l hl).1]
      case filling =>
        funext l
        by_cases hl : l = k
        · subst hl
          simp [linkTo, refill, ToggleLink.fill, refilled, hfree, hready]
        · simp [linkTo, refill, ToggleLink.fill, refilled, hl, (hother l hl).1]

/-- A subchannel whose section is written is a slot of the link that is marked;
without a section the link stays. -/
theorem linkTo_mark {reliable : Option Section} : (peer.mark reliable).linkTo other =
    match reliable with
    | none => peer.linkTo other
    | some s => (peer.linkTo other).mark s.subchannel := by
  cases reliable with
  | none => rfl
  | some s =>
      refine ToggleLink.ext rfl rfl ?_ rfl rfl rfl rfl rfl rfl rfl
      funext l
      by_cases hl : l = s.subchannel
      · subst hl
        simp [linkTo, mark, NetChannel.sent, NetChannel.marked, ToggleLink.mark, SubChannel.slot]
      · simp [linkTo, mark, NetChannel.sent, NetChannel.marked, ToggleLink.mark, hl]

/-- A packet that is written is one more frame of the link, with the filling that it
carries. -/
theorem linkTo_emit [Crc] {reliable : Option Section} {messages : List Message} :
    (peer.emit reliable messages).linkTo other =
      (peer.linkTo other).emit
      (reliable.map fun s => (s.subchannel, peer.fillings s.subchannel)) := by
  refine ToggleLink.ext rfl rfl rfl rfl rfl rfl rfl rfl ?_ rfl
  simp [linkTo, emit, ToggleLink.emit, datagram, Datagram.frame]

/-- The packets of the sender are the acknowledgements of the other direction. -/
theorem linkTo_of_emit [Crc] {reliable : Option Section} {messages : List Message} :
    other.linkTo (peer.emit reliable messages) =
      (other.linkTo peer).acknowledge peer.channel.outSequenceNr := by
  refine ToggleLink.ext rfl rfl rfl rfl rfl rfl rfl rfl rfl ?_
  simp [linkTo, emit, ToggleLink.acknowledge, datagram, Datagram.ack]

/-- Filling a subchannel is nothing that the link towards the peer sees. -/
theorem linkTo_of_refill : other.linkTo peer.refill = other.linkTo peer := by
  simp only [linkTo, refill]
  rw [NetChannel.filled_others]

/-- Writing a section is nothing that the link towards the peer sees. -/
theorem linkTo_of_mark {reliable : Option Section} :
    other.linkTo (peer.mark reliable) = other.linkTo peer := by
  cases reliable <;> rfl

open ToggleLink (Step Steps)

/-- Filling a subchannel is at most one step of the link. -/
theorem steps_refill : Steps (peer.linkTo other) (peer.refill.linkTo other) := by
  rw [linkTo_refill]
  cases hfillable : peer.channel.fillable with
  | none => exact .refl
  | some k =>
      have hsub := peer.channel.filled_subchannel k
      rw [if_pos hfillable] at hsub
      exact .single (.fill _ (SubChannel.slot_eq_free.mpr hsub.1))

/-- Writing a section is at most one step of the link. -/
theorem steps_mark {reliable : Option Section} (hcarries : peer.channel.Carries reliable) :
    Steps (peer.linkTo other) ((peer.mark reliable).linkTo other) := by
  rw [linkTo_mark]
  cases reliable with
  | none => exact .refl
  | some s =>
      have hready := NetChannel.findSubchannel_eq_some hcarries.1
      exact .single (.mark _ (SubChannel.slot_eq_ready.mpr hready))

/-- Writing the packet is a step of the link. -/
theorem step_emit [Crc] {reliable : Option Section} {messages : List Message} :
    Step ((peer.mark reliable).linkTo other)
      (((peer.mark reliable).emit reliable messages).linkTo other) := by
  rw [linkTo_emit]
  refine .emit _ fun k n hbody => ?_
  obtain ⟨s, rfl, hs⟩ := Option.map_eq_some_iff.mp hbody
  obtain ⟨rfl, rfl⟩ := Prod.mk.inj hs
  refine ⟨?_, rfl⟩
  rw [linkTo_mark]
  simp [ToggleLink.mark]

/-- Putting a subchannel into a packet does not free or fill it. -/
theorem refilled_sent {reliable : Option Section}
    (hcarries : peer.channel.filled.Carries reliable) :
    peer.refilled (peer.channel.filled.sent reliable) = peer.refilled peer.channel.filled := by
  cases reliable with
  | none => rfl
  | some s =>
      have hready := NetChannel.findSubchannel_eq_some hcarries.1
      funext k
      by_cases hk : k = s.subchannel
      · subst hk
        simp [refilled, NetChannel.sent, NetChannel.marked, hready]
      · simp [refilled, NetChannel.sent, NetChannel.marked, hk]

variable [BitstreamIo] [Crc]

/-- Writing fills a subchannel, marks one and emits a packet with it, unless
the messages cannot be written. -/
theorem write_cases (hs : peer.Sound c) {messages : List Message}
    (hwrite : peer.write messages = some peer') :
    ∃ reliable, peer.channel.filled.Carries reliable ∧
      (peer' = peer.refill.mark reliable ∨ peer.channel.outSequenceNr + 1 < 2 ^ 32 ∧
        peer' = (peer.refill.mark reliable).emit reliable messages) := by
  obtain ⟨reliable, hcarries, heq⟩ :=
    NetChannel.writePacket_eq hs.books (NetChannel.filled_few hs.books hs.few) hs.numbered.out
      hs.numbered.inc messages
  have hfill : (NetChannel.fillOutgoingSubchannel peer.channel).2 = peer.channel.filled := by
    rw [NetChannel.fillOutgoingSubchannel_eq hs.books]
  have hfind : peer.channel.filled.findSubchannel waitingToSend = reliable.map (·.subchannel) := by
    cases reliable with
    | none => exact hcarries
    | some s => exact hcarries.1
  have hrefilled : peer.refilled (peer.channel.filled.sent reliable) =
      peer.refilled peer.channel.filled := refilled_sent hcarries
  refine ⟨reliable, hcarries, ?_⟩
  unfold write at hwrite
  rw [heq] at hwrite
  by_cases hover : Oversized peer.channel.configuration.server.maxReliablePacketSize reliable
  · simp only [if_pos hover] at hwrite
    cases hwrite
  · by_cases hms : ∀ m ∈ messages, m.Writable
    · by_cases hnext : peer.channel.outSequenceNr + 1 < 2 ^ 32
      · simp only [if_neg hover, if_pos hms, if_pos hnext, Option.some.injEq] at hwrite
        refine .inr ⟨hnext, ?_⟩
        obtain ⟨hout, hin, hstate, hpacket⟩ : (peer.channel.filled.sent reliable).outSequenceNr =
            peer.channel.outSequenceNr ∧ (peer.channel.filled.sent reliable).inSequenceNr =
            peer.channel.inSequenceNr ∧ (peer.channel.filled.sent reliable).inReliableState =
            peer.channel.inReliableState ∧
              (peer.channel.filled.sent reliable).packet reliable messages =
            peer.channel.packet reliable messages := by
          rw [NetChannel.sent_filled_others]
          exact ⟨rfl, rfl, rfl, rfl⟩
        have hrefilled' : peer.refilled { peer.channel.filled.sent reliable with
            outSequenceNr := peer.channel.outSequenceNr + 1 } = peer.refilled peer.channel.filled :=
          hrefilled
        rw [← hwrite, hrefilled']
        simp only [emit, datagram, mark, refill, hout, hin, hstate, hpacket, hfill, hfind,
          Option.map_map, Function.comp_def]
      · simp only [if_neg hover, if_pos hms, if_neg hnext] at hwrite
        cases hwrite
    · simp only [if_neg hover, if_neg hms, Option.some.injEq] at hwrite
      rw [hrefilled] at hwrite
      exact .inl hwrite.symm

/-! ## A party stays sound -/

omit [Crc] in
/-- Queueing adds a transfer that nothing of was sent yet, or it fails and the peer
is as before. -/
theorem queue_cases {messages : List Message} (hqueue : peer.queue messages = some peer') :
    (∃ stream, NetChannel.encodeMessages messages = .ok stream.data ∧ stream.ackedFragments = 0 ∧
      stream.pendingFragments = 0 ∧ peer' = { peer with
        channel := peer.channel.setOutgoing 0 (peer.channel.outgoingReliableData 0 ++ [stream])
        queued := peer.queued ++ [messages] }) ∨ peer' = peer := by
  unfold queue at hqueue
  obtain ⟨stream, hencode, hacked, hpending, hok⟩ | ⟨e, herr⟩ :=
    NetChannel.queueReliableMessages_cases messages peer.channel
  · simp only [hok, Option.some.injEq] at hqueue
    exact .inl ⟨stream, hencode, hacked, hpending, hqueue.symm⟩
  · simp only [herr, Option.some.injEq] at hqueue
    exact .inr hqueue.symm

/-- Queueing a transfer whose size fits its field keeps a peer sound. -/
theorem Sound.queue (hs : peer.Sound c) {messages : List Message}
    (hsmall : ∀ data, NetChannel.encodeMessages messages = .ok data → data.length < 2 ^ 26)
    (hqueue : peer.queue messages = some peer') : peer'.Sound c := by
  obtain ⟨stream, hencode, hacked, hpending, rfl⟩ | rfl := queue_cases hqueue
  · exact ⟨hs.books.enqueue (hsmall _ hencode) hacked hpending, hs.few,
      ⟨hs.numbered.out, hs.numbered.inc⟩, hs.challenge, hs.dated, hs.written⟩
  · exact hs

omit [BitstreamIo] in
/-- Filling a subchannel and writing its section keeps a peer sound. -/
theorem Sound.mark_refill (hs : peer.Sound c) {reliable : Option Section}
    (hcarries : peer.channel.filled.Carries reliable) : (peer.refill.mark reliable).Sound c := by
  have hothers := NetChannel.sent_filled_others peer.channel reliable
  refine ⟨?books, ?few, ?numbered, ?challenge, ?dated, hs.written⟩
  case books =>
    cases reliable with
    | none => exact NetChannel.filled_keeps hs.books
    | some s =>
        refine NetChannel.marked_keeps (NetChannel.filled_keeps hs.books) ?_
        simp [NetChannel.findSubchannel_eq_some hcarries.1]
  case few =>
    show (peer.channel.filled.sent reliable).maxFragments < 8
    rw [hothers]
    exact hs.few
  case numbered =>
    show (peer.channel.filled.sent reliable).Numbered
    rw [hothers]
    exact ⟨hs.numbered.out, hs.numbered.inc⟩
  case challenge =>
    show (peer.channel.filled.sent reliable).challenge = c
    rw [hothers]
    exact hs.challenge
  case dated =>
    have hfilled : ∀ k, (peer.channel.filled.outgoingSubchannels k).Dated := by
      intro k
      have hsub := peer.channel.filled_subchannel k
      split at hsub
      · unfold SubChannel.Dated
        simp only [hsub.2.1]
      · rw [hsub.1]
        exact hs.dated k
    intro k
    cases reliable with
    | none => exact hfilled k
    | some s =>
        by_cases hk : k = s.subchannel
        · subst hk
          simp [mark, refill, NetChannel.sent, NetChannel.marked, SubChannel.Dated]
        · simpa [mark, refill, NetChannel.sent, NetChannel.marked, hk] using hfilled k

omit [BitstreamIo] in
/-- What a sound peer writes is the packet that its channel has to say. -/
theorem Sound.datagram_writes (hs : peer.Sound c) (reliable : Option Section)
    (messages : List Message) :
    (peer.datagram reliable messages).Writes c (peer.channel.packet reliable messages) :=
  ⟨rfl, rfl, rfl, rfl, hs.challenge, by simp [datagram, NetChannel.packet, Function.comp_def]⟩

omit [BitstreamIo] in
/-- Recording the packet that was written keeps a peer sound, as long as the next
number fits its field. -/
theorem Sound.emit (hs : peer.Sound c) (hnext : peer.channel.outSequenceNr + 1 < 2 ^ 32)
    (reliable : Option Section) (messages : List Message) :
    (peer.emit reliable messages).Sound c where
  books := hs.books.congr rfl rfl rfl
  few := hs.few
  numbered := ⟨hnext, hs.numbered.inc⟩
  challenge := hs.challenge
  dated := hs.dated
  written d hd := by
    obtain hd | rfl := by simpa [Peer.emit] using hd
    · exact hs.written d hd
    · exact ⟨hs.numbered.out, hs.numbered.inc, _, hs.datagram_writes reliable messages⟩

/-- Writing a packet keeps a peer sound, whether it works out or not. -/
theorem Sound.write (hs : peer.Sound c) {messages : List Message}
    (hwrite : peer.write messages = some peer') : peer'.Sound c := by
  obtain ⟨reliable, hcarries, rfl | ⟨hnext, rfl⟩⟩ := write_cases hs hwrite
  · exact hs.mark_refill hcarries
  · refine (hs.mark_refill hcarries).emit ?_ reliable messages
    show (peer.channel.filled.sent reliable).outSequenceNr + 1 < 2 ^ 32
    rwa [NetChannel.sent_filled_others]

/-! ## Reading -/

omit [BitstreamIo] in
/-- No subchannel rejects an acknowledgement that the sender has not looked at. -/
theorem Sound.not_rejects (hs : peer.Sound c) (hlink : (peer.linkTo other).Inv) {d : Datagram}
    (hfresh : (peer.linkTo other).Fresh d.ack) (k : Fin MAX_SUBCHANNELS) :
    ¬ (peer.channel.outgoingSubchannels k).Rejects (peer.channel.Agrees d.reliableState k)
      d.sequenceAck := by
  have hdated := hs.dated k
  have hslot := hlink.slots k
  have hagrees : peer.channel.Agrees d.reliableState k = true ↔
      d.ack.bit k = (peer.linkTo other).bit k := beq_iff_eq.trans eq_comm
  unfold SubChannel.Rejects
  cases hstate : (peer.channel.outgoingSubchannels k).state with
  | free =>
      have hbit := (hslot.free (SubChannel.slot_eq_free.mpr hstate)).2 _ hfresh
      simp only [SubChannel.Dated, hstate] at hdated
      rw [if_pos (hagrees.mpr hbit), hdated]
      omega
  | waitingToSend =>
      have hbit := hlink.ready_differs hfresh (SubChannel.slot_eq_ready.mpr hstate)
      rw [if_neg (mt hagrees.mp hbit)]
      simp
  | waitingForAck =>
      split
      case isTrue h =>
        have hle :=
          hslot.agree_sent _ (SubChannel.slot_of_waitingForAck hstate) _ hfresh (hagrees.mp h)
        have hack : (peer.channel.outgoingSubchannels k).sendSeqNr.toNat ≤ d.sequenceAck := hle
        omega
      case isFalse => simp

/-- Reading a datagram is `read_packet` on its bytes, without a panic, and records
the outcome if messages are returned. -/
theorem read_eq_some {d : Datagram} (hread : peer.read d = some peer') :
    ∃ outcome, NetChannel.readPacket d.bytes peer.channel = (outcome, peer'.channel) ∧
      outcome ≠ .panic ∧ peer' = { peer with
        channel := peer'.channel
        accepted := peer.accepted ++ d.carried.toList.filter fun x =>
          peer'.channel.inReliableState.getLsbD x.1 != peer.channel.inReliableState.getLsbD x.1
        popped := peer.popped + ((peer.channel.outgoingReliableData 0).length -
          (peer'.channel.outgoingReliableData 0).length)
        returned :=
          match outcome with
          | .ok messages => peer.returned ++ [messages]
          | _ => peer.returned } := by
  unfold read at hread
  rcases hpacket : NetChannel.readPacket d.bytes peer.channel with ⟨outcome, channel⟩
  rw [hpacket] at hread
  cases outcome with
  | panic => cases hread
  | ok messages =>
      obtain rfl := Option.some.inj hread
      exact ⟨_, rfl, by simp, rfl⟩
  | err e =>
      obtain rfl := Option.some.inj hread
      exact ⟨_, rfl, by simp, rfl⟩

/-- A packet of the other party is refused, or its header is accepted. -/
theorem readPacket_cases_of_writes (hs : peer.Sound c) (ho : other.Sound c)
    (hlink : (peer.linkTo other).Inv) {d : Datagram} (hd : d ∈ other.written) {p : Packet}
    (hp : d.Writes c p) :
    ¬ NetChannel.Due peer.channel d.sequence ∧ (∃ e, e.ofSender = false ∧
        (d.sequence ≤ peer.channel.inSequenceNr →
          e = .unexpectedSequence d.sequence peer.channel.inSequenceNr) ∧
        NetChannel.readPacket d.bytes peer.channel =
          (.err e, { peer.channel with hasSeenChallenge := true })) ∨
      NetChannel.Due peer.channel d.sequence ∧ ∃ mid,
        NetChannel.readHeader { data := p.bytes, pos := 0 } p.bytes peer.channel =
          (.ok (p.flags, { data := p.bytes, pos := 128 }), mid) ∧
        NetChannel.Acknowledged d.sequence d.sequenceAck d.reliableState
          { peer.channel with hasSeenChallenge := true } mid := by
  obtain ⟨hsequence, hack, -⟩ := ho.written d hd
  have hchallenge : p.challenge = peer.channel.challenge := hp.challenge.trans hs.challenge.symm
  rw [← hp.sequence] at hsequence ⊢
  rw [← hp.sequenceAck] at hack ⊢
  rw [← hp.reliableState, hp.bytes]
  by_cases hdue : NetChannel.Due peer.channel p.sequence
  · have hfresh : (peer.linkTo other).Fresh d.ack :=
      ⟨List.mem_map_of_mem hd, hdue.lt.trans_eq hp.sequence⟩
    refine .inr
      ⟨hdue, NetChannel.readHeader_of_due hs.books hsequence hack hchallenge hdue fun k => ?_⟩
    rw [hp.reliableState, hp.sequenceAck]
    exact hs.not_rejects hlink hfresh k
  · exact .inl ⟨hdue, NetChannel.readPacket_of_not_due hsequence hack hchallenge hdue⟩

/-- A packet of the other peer is refused for its number and leaves nothing but the
flag of the challenge, or it is due, and then its acknowledgements are taken and its
section is read. -/
theorem readPacket_cases (hs : peer.Sound c) (ho : other.Sound c)
    (hlink : (peer.linkTo other).Inv) {d : Datagram} (hd : d ∈ other.written) :
    ∃ p, d.Writes c p ∧
      (¬ NetChannel.Due peer.channel d.sequence ∧ (∃ e, e.ofSender = false ∧
        (d.sequence ≤ peer.channel.inSequenceNr →
          e = .unexpectedSequence d.sequence peer.channel.inSequenceNr) ∧
        NetChannel.readPacket d.bytes peer.channel =
          (.err e, { peer.channel with hasSeenChallenge := true })) ∨
      NetChannel.Due peer.channel d.sequence ∧ ∃ mid,
        NetChannel.readHeader { data := p.bytes, pos := 0 } p.bytes peer.channel =
          (.ok (p.flags, { data := p.bytes, pos := 128 }), mid) ∧
        NetChannel.Acknowledged d.sequence d.sequenceAck d.reliableState
          { peer.channel with hasSeenChallenge := true } mid) := by
  obtain ⟨-, -, p, hp⟩ := ho.written d hd
  exact ⟨p, hp, readPacket_cases_of_writes hs ho hlink hd hp⟩

section Took

variable {d : Datagram} {mid : NetChannel} {reliable : Option Section}
  (hacknowledged : NetChannel.Acknowledged d.sequence d.sequenceAck d.reliableState
    { peer.channel with hasSeenChallenge := true } mid)
  (hbody : NetChannel.BodyRead reliable mid peer'.channel)

include hacknowledged hbody

omit [BitstreamIo] [Crc] in
/-- A packet that is taken changes what was received, the acknowledgements and the
two numbers of its header. -/
theorem took_others : peer'.channel = { peer.channel with
    hasSeenChallenge := true
    inSequenceNr := d.sequence
    outSequenceNrAck := mid.outSequenceNrAck
    outgoingReliableData := mid.outgoingReliableData
    outgoingSubchannels := mid.outgoingSubchannels
    inReliableState := peer'.channel.inReliableState
    incomingReliableData := peer'.channel.incomingReliableData } := by
  rw [hbody.others, hacknowledged.others, hacknowledged.inSequenceNr]

omit [BitstreamIo] [Crc] in
/-- An accepted header settles the slots. -/
theorem linkTo_took (hdated : ∀ k, (peer.channel.outgoingSubchannels k).Dated)
    (hfillings : peer'.fillings = peer.fillings) (hwritten : peer'.written = peer.written) :
    peer'.linkTo other = (peer.linkTo other).settle d.ack := by
  simp only [linkTo, hfillings, hwritten]
  rw [took_others hacknowledged hbody]
  refine ToggleLink.ext rfl rfl ?_ rfl rfl rfl rfl rfl rfl rfl
  funext k
  have hagrees : peer.channel.Agrees d.reliableState k =
      decide (d.ack.bit k = (peer.linkTo other).bit k) := by
    rw [Bool.eq_iff_iff, decide_eq_true_iff]
    exact beq_iff_eq.trans eq_comm
  have hslot := (hdated k).slot_settle (peer.channel.Agrees d.reliableState k) d.sequenceAck
  have hsub : mid.outgoingSubchannels k = (peer.channel.outgoingSubchannels k).settle
      (peer.channel.Agrees d.reliableState k) d.sequenceAck := hacknowledged.subchannels k
  show (mid.outgoingSubchannels k).slot = (peer.linkTo other).settled d.ack k
  rw [hsub, hslot, hagrees]
  simp only [decide_eq_true_eq]
  rfl

omit [BitstreamIo] in
/-- A toggled bit keeps the filling in the packet; otherwise the packet is passed over. -/
theorem linkTo_of_took {p : Packet} (hp : d.Writes c p) (hreliable : reliable = p.reliable)
    (haccepted : peer'.accepted = peer.accepted ++ d.carried.toList.filter fun x =>
      peer'.channel.inReliableState.getLsbD x.1 != peer.channel.inReliableState.getLsbD x.1)
    (hwritten : peer'.written = peer.written) :
    other.linkTo peer' = (other.linkTo peer).skip d.sequence ∨
      ∃ k n, d.carried = some (k, n) ∧
      other.linkTo peer' = (other.linkTo peer).keep d.sequence k n := by
  have hothers := took_others hacknowledged hbody
  have hseen : peer'.channel.inSequenceNr = d.sequence := by rw [hothers]
  have hmid : mid.inReliableState = peer.channel.inReliableState := by rw [hacknowledged.others]
  obtain hstate | ⟨s, hs, hstate⟩ := hbody.inReliableState
  · rw [hmid] at hstate
    refine .inl (ToggleLink.ext rfl rfl rfl rfl rfl hseen ?_ ?_ rfl
      (by simp [linkTo, hwritten, ToggleLink.skip]))
    · simp only [linkTo, hstate, ToggleLink.skip]
    · simp [linkTo, haccepted, hstate, ToggleLink.skip]
  · rw [hmid] at hstate
    have hcarried := hp.carried
    rw [← hreliable, hs, Option.map_some, Option.map_eq_some_iff] at hcarried
    obtain ⟨⟨k, n⟩, hcarried, rfl⟩ := hcarried
    have hbit := fun l => getLsbD_xor_mask peer.channel.inReliableState s.subchannel l
    refine .inr ⟨s.subchannel, n, hcarried, ToggleLink.ext rfl rfl rfl rfl rfl hseen ?_ ?_ rfl
      (by simp [linkTo, hwritten, ToggleLink.keep])⟩
    · funext l
      simp only [linkTo, hstate, ToggleLink.keep]
      rw [hbit]
      by_cases hl : l = s.subchannel
      · subst hl
        simp
      · simp [hl]
    · simp [linkTo, haccepted, hstate, hcarried, ToggleLink.keep]

end Took

/-- `later` is `peer` after it accepted the header of `d` and read its body. -/
structure Took (c : BitVec 32) (d : Datagram) (peer later : Peer) : Prop where
  due : NetChannel.Due peer.channel d.sequence
  channel : ∃ p mid outcome, d.Writes c p ∧
    NetChannel.Acknowledged d.sequence d.sequenceAck d.reliableState
      { peer.channel with hasSeenChallenge := true } mid ∧
    NetChannel.readHeader { data := p.bytes, pos := 0 } p.bytes peer.channel =
      (.ok (p.flags, { data := p.bytes, pos := 128 }), mid) ∧
    NetChannel.readPacket d.bytes peer.channel = (outcome, later.channel) ∧
    NetChannel.BodyRead p.reliable mid later.channel
  accepted : later.accepted = peer.accepted ++ d.carried.toList.filter fun x =>
    later.channel.inReliableState.getLsbD x.1 != peer.channel.inReliableState.getLsbD x.1
  written : later.written = peer.written
  fillings : later.fillings = peer.fillings

/-- The two cases of reading, as updates of the peer: the packet is not due, or it
is taken. -/
theorem read_cases (hs : peer.Sound c) (ho : other.Sound c) (hlink : (peer.linkTo other).Inv)
    {d : Datagram} (hd : d ∈ other.written) (hread : peer.read d = some peer') :
    ¬ NetChannel.Due peer.channel d.sequence ∧
        peer' = { peer with channel := { peer.channel with hasSeenChallenge := true } } ∨
      Took c d peer peer' := by
  obtain ⟨outcome, hpacket, hpanic, hpeer⟩ := read_eq_some hread
  obtain ⟨p, hp, ⟨hdue, e, -, -, herr⟩ | ⟨hdue, mid, hheader, hacknowledged⟩⟩ :=
    readPacket_cases hs ho hlink hd
  · obtain ⟨rfl, hchannel⟩ := Prod.mk.inj (herr.symm.trans hpacket)
    refine .inl ⟨hdue, ?_⟩
    rw [hpeer, ← hchannel]
    simp
  · have hbytes := hpacket
    rw [hp.bytes] at hbytes
    have hbody := (NetChannel.readPacket_bodyRead hheader hbytes hpanic).1
    exact .inr ⟨hdue, ⟨p, mid, outcome, hp, hacknowledged, hheader, hpacket, hbody⟩,
      by rw [hpeer], by rw [hpeer], by rw [hpeer]⟩

/-- Reading a packet that the other peer has written keeps a peer sound. -/
theorem Sound.read (hs : peer.Sound c) (ho : other.Sound c) (hlink : (peer.linkTo other).Inv)
    {d : Datagram} (hd : d ∈ other.written) (hread : peer.read d = some peer') : peer'.Sound c := by
  obtain ⟨outcome, hpacket, hpanic, hpeer⟩ := read_eq_some hread
  have happly : (NetChannel.Call.readPacket d.bytes).apply peer.channel = some peer'.channel :=
    NetChannel.returned_eq_some.mpr ⟨by rw [hpacket]; exact hpanic, by rw [hpacket]⟩
  have hlater := NetChannel.Call.apply_later (by simp) happly
  have hsmall : (NetChannel.Call.readPacket d.bytes).Small := trivial
  refine ⟨NetChannel.Call.apply_books hs.books hsmall happly, ?few, hlater.numbered hs.numbered,
    hlater.challenge.trans hs.challenge, ?dated, by rw [hpeer]; exact hs.written⟩
  case few =>
    have hfew := hs.few
    rwa [NetChannel.maxFragments, ← hlater.configuration] at hfew
  case dated =>
    intro k
    obtain ⟨-, heq⟩ | htook := read_cases hs ho hlink hd hread
    · rw [heq]
      exact hs.dated k
    · obtain ⟨p, mid, _, -, hacknowledged, -, -, hbody⟩ := htook.channel
      rw [took_others hacknowledged hbody]
      show (mid.outgoingSubchannels k).Dated
      rw [hacknowledged.subchannels]
      exact (hs.dated k).settle _ _

/-! ## Steps of the links -/

/-- Writing a packet is a run of the link that the peer sends on, and leaves the
other one alone. -/
theorem steps_write (hs : peer.Sound c) (hlink : (peer.linkTo other).Inv) {messages : List Message}
    (hwrite : peer.write messages = some peer') :
    Steps (peer.linkTo other) (peer'.linkTo other) ∧
      Steps (other.linkTo peer) (other.linkTo peer') := by
  obtain ⟨reliable, hcarries, hpeer⟩ := write_cases hs hwrite
  have hmark : Steps (peer.linkTo other) ((peer.refill.mark reliable).linkTo other) :=
    steps_refill.trans (steps_mark hcarries)
  have hsame : other.linkTo (peer.refill.mark reliable) = other.linkTo peer :=
    linkTo_of_mark.trans linkTo_of_refill
  obtain rfl | ⟨-, rfl⟩ := hpeer
  · exact ⟨hmark, hsame ▸ .refl⟩
  · refine ⟨hmark.tail step_emit, ?_⟩
    rw [linkTo_of_emit, hsame]
    refine .single (.acknowledge _ fun a ha => ?_)
    obtain ⟨d, hd, rfl⟩ := List.mem_map.mp ha
    exact (hmark.inv hlink).frames_lt _ (List.mem_map_of_mem hd)

/-- Reading a packet is a run of both links: the peer receives on one of them, and
sees acknowledgements for the other. -/
theorem steps_read (hs : peer.Sound c) (ho : other.Sound c) (hlink : (peer.linkTo other).Inv)
    {d : Datagram} (hd : d ∈ other.written) (hread : peer.read d = some peer') :
    Steps (peer.linkTo other) (peer'.linkTo other) ∧
      Steps (other.linkTo peer) (other.linkTo peer') := by
  obtain ⟨-, rfl⟩ | htook := read_cases hs ho hlink hd hread
  · exact ⟨.refl, .refl⟩
  · obtain ⟨p, mid, _, hp, hacknowledged, -, -, hbody⟩ := htook.channel
    constructor
    · rw [linkTo_took hacknowledged hbody hs.dated htook.fillings htook.written]
      exact .single (.settle _ ⟨List.mem_map_of_mem hd, htook.due.lt⟩)
    · have hframe : d.frame ∈ (other.linkTo peer).frames := List.mem_map_of_mem hd
      obtain heq | ⟨k, n, hcarried, heq⟩ :=
        linkTo_of_took hacknowledged hbody hp rfl htook.accepted htook.written
      · rw [heq]
        exact .single (.skip _ hframe htook.due.lt)
      · rw [heq]
        exact .single (.keep _ hframe htook.due.lt hcarried)

omit [Crc] in
/-- Queueing is nothing that any of the two links sees. -/
theorem steps_queue {messages : List Message} (hqueue : peer.queue messages = some peer')
    (other : Peer) :
    peer'.linkTo other = peer.linkTo other ∧ other.linkTo peer' = other.linkTo peer := by
  obtain ⟨stream, -, -, -, rfl⟩ | rfl := queue_cases hqueue
  · exact ⟨rfl, rfl⟩
  · exact ⟨rfl, rfl⟩

end Peer

/-! ## The network -/

namespace Peers

open ToggleLink (Steps)

/-- The direction from `p` to the other party. -/
def link (self : Peers) (p : Party) : ToggleLink (Fin MAX_SUBCHANNELS) :=
  (self p).linkTo (self p.other)

/-- Both parties follow the protocol, and so do both directions. -/
structure Honest (c : BitVec 32) [Crc] (net : Peers) : Prop where
  sound : ∀ p, (net p).Sound c
  inv : ∀ p, (net.link p).Inv

/-- A step of one party leaves the other one alone. -/
theorem update_other (net : Peers) (p : Party) (peer : Peer) :
    Function.update net p peer p.other = net p.other := Function.update_of_ne (by simp) _ _

/-- What holds of the party that took a step and of the other one holds of both. -/
theorem forall_update {P : Party → Peer → Prop} {net : Peers} {p : Party} {peer : Peer}
    (hself : P p peer) (hother : P p.other (net p.other)) (q : Party) :
    P q (Function.update net p peer q) := by
  obtain rfl | rfl := p.eq_or_eq_other q
  · rwa [Function.update_self]
  · rwa [update_other]

/-- A run of the two links of one party is a run of the link of each party. -/
theorem steps_update {net : Peers} {p : Party} {peer : Peer}
    (h : Steps ((net p).linkTo (net p.other)) (peer.linkTo (net p.other)) ∧
      Steps ((net p.other).linkTo (net p)) ((net p.other).linkTo peer)) (q : Party) :
    Steps (net.link q) (link (Function.update net p peer) q) := by
  unfold link
  obtain rfl | rfl := p.eq_or_eq_other q
  · rw [Function.update_self, update_other]
    exact h.1
  · rw [update_other, Party.other_other, Function.update_self]
    exact h.2

section

variable [BitstreamIo] [Crc] {c : BitVec 32} {net net' : Peers}

omit [BitstreamIo] in
/-- The direction to a party, from the side of the other. -/
theorem Honest.inv_other (h : net.Honest c) (p : Party) : ((net p.other).linkTo (net p)).Inv := by
  have hlink := h.inv p.other
  rwa [link, Party.other_other] at hlink

/-- A delivery hands a packet that was written to the other party. -/
theorem step_deliver {p : Party} {index : Nat} (hstep : net.step (.deliver p index) = some net') :
    ∃ d ∈ (net p).written, ∃ peer, (net p.other).read d = some peer ∧
      Function.update net p.other peer = net' := by
  simp only [step] at hstep
  split at hstep
  case h_2 => cases hstep
  case h_1 d hd => exact ⟨d, List.mem_of_getElem? hd, Option.map_eq_some_iff.mp hstep⟩

/-- A step of the parties is some steps of both directions. -/
theorem Honest.steps (h : net.Honest c) {action : Action} (hstep : net.step action = some net')
    (q : Party) : Steps (net.link q) (net'.link q) := by
  cases action with
  | queue p messages =>
      obtain ⟨peer, hqueue, rfl⟩ := Option.map_eq_some_iff.mp hstep
      have hsame := Peer.steps_queue hqueue (net p.other)
      exact steps_update ⟨hsame.1 ▸ .refl, hsame.2 ▸ .refl⟩ q
  | write p messages =>
      obtain ⟨peer, hwrite, rfl⟩ := Option.map_eq_some_iff.mp hstep
      exact steps_update (Peer.steps_write (h.sound p) (h.inv p) hwrite) q
  | deliver p index =>
      obtain ⟨d, hd, peer, hread, rfl⟩ := step_deliver hstep
      refine steps_update ?_ q
      rw [Party.other_other]
      exact Peer.steps_read (h.sound p.other) (h.sound p) (h.inv_other p) hd hread

/-- A sound party stays sound through every step with small transfers. -/
theorem Honest.step (h : net.Honest c) {action : Action} (hsmall : action.Small)
    (hstep : net.step action = some net') : net'.Honest c := by
  refine ⟨?_, fun q => (h.steps hstep q).inv (h.inv q)⟩
  cases action with
  | queue p messages =>
      obtain ⟨peer, hqueue, rfl⟩ := Option.map_eq_some_iff.mp hstep
      exact forall_update (P := fun _ peer => peer.Sound c) ((h.sound p).queue hsmall hqueue)
        (h.sound p.other)
  | write p messages =>
      obtain ⟨peer, hwrite, rfl⟩ := Option.map_eq_some_iff.mp hstep
      exact forall_update (P := fun _ peer => peer.Sound c) ((h.sound p).write hwrite)
        (h.sound p.other)
  | deliver p index =>
      obtain ⟨d, hd, peer, hread, rfl⟩ := step_deliver hstep
      refine forall_update (P := fun _ peer => peer.Sound c) ?_ (h.sound p.other.other)
      exact (h.sound p.other).read (h.sound p) (h.inv_other p) hd hread

omit [BitstreamIo] in
/-- Two new channels are honest: they are sound, and their links are in their first
state. -/
theorem Honest.new {configuration : Party → Configuration}
    (hmax : ∀ p, 256 ≤ (configuration p).server.maxReliablePacketSize ∧
      (configuration p).server.maxReliablePacketSize ≤ 2047) :
    (Peers.new c configuration).Honest c := by
  have hlink : ∀ p, (Peers.new c configuration).link p = ToggleLink.new (Fin MAX_SUBCHANNELS) := by
    intro p
    simp [link, Peers.new, Peer.linkTo, Peer.new, NetChannel.new, ToggleLink.new, SubChannel.slot,
      SubChannel.newFree]
  refine ⟨fun p => ?_, fun p => hlink p ▸ ToggleLink.Inv.new⟩
  have hfew : (configuration p).server.maxReliablePacketSize / FRAGMENT_SIZE < 8 := by
    have := (hmax p).2
    rw [FRAGMENT_SIZE_eq]
    omega
  exact ⟨Bookkeeping.new c (hmax p).1, hfew,
    ⟨show 1 < 2 ^ 32 by decide, show 0 < 2 ^ 32 by decide⟩, rfl,
    fun _ => rfl, by simp [Peers.new, Peer.new]⟩

/-- Every run of two honest parties leaves them honest, and is a run of their two
links. -/
theorem Honest.run (h : net.Honest c) {actions : List Action}
    (hsmall : ∀ action ∈ actions, action.Small) (hrun : net.run actions = some net') :
    net'.Honest c ∧ ∀ q, Steps (net.link q) (net'.link q) := by
  refine Run.induction_of (I := fun now => now.Honest c ∧ ∀ q, Steps (net.link q) (now.link q))
    (fun now action next hnow hsmall hstep => ?_) ⟨h, fun _ => .refl⟩ hsmall hrun
  exact ⟨hnow.1.step hsmall hstep, fun q => (hnow.2 q).trans (hnow.1.steps hstep q)⟩

/-! ## What an acknowledgement says -/

/-- From here on, the other party refuses the packet that `p` wrote. -/
def Stale (net : Peers) (p : Party) (d : Datagram) : Prop :=
  ∀ actions later, (∀ action ∈ actions, action.Small) → net.run actions = some later →
    (NetChannel.readPacket d.bytes (later p.other).channel).1 =
      .err (.unexpectedSequence d.sequence (later p.other).channel.inSequenceNr)

/-- A packet whose number has passed will never be read again. -/
theorem Honest.stale (h : net.Honest c) {p : Party} {d : Datagram} (hd : d ∈ (net p).written)
    (hle : d.sequence ≤ (net p.other).channel.inSequenceNr) : net.Stale p d := by
  intro actions later hsmall hrun
  obtain ⟨hlater, hsteps⟩ := h.run hsmall hrun
  obtain ⟨hsequence, hack, q, hq⟩ := (h.sound p).written d hd
  have hseen : d.sequence ≤ (later p.other).channel.inSequenceNr := hle.trans (hsteps p).seen_le
  have hchallenge : q.challenge = (later p.other).channel.challenge :=
    hq.challenge.trans (hlater.sound p.other).challenge.symm
  rw [← hq.sequence] at hsequence hseen ⊢
  rw [← hq.sequenceAck] at hack
  obtain ⟨e, -, he, herr⟩ := NetChannel.readPacket_of_not_due hsequence hack hchallenge
    fun hdue => Nat.not_lt.mpr hseen hdue.lt
  rw [hq.bytes, herr, he hseen]

/-- Delivering a packet does nothing, or it settles the slots of the reader. -/
theorem Honest.deliver (h : net.Honest c) {p : Party} {index : Nat}
    (hstep : net.step (.deliver p.other index) = some net') :
    net' p.other = net p.other ∧ (net' p).written = (net p).written ∧
      ((net' p).channel.outgoingSubchannels = (net p).channel.outgoingSubchannels ∨
        ∃ d : Datagram, (net.link p).Fresh d.ack ∧ net'.link p = (net.link p).settle d.ack) := by
  obtain ⟨d, hd, peer, hread, rfl⟩ := step_deliver hstep
  rw [Party.other_other] at hread
  rw [Party.other_other, Function.update_self, update_other]
  refine ⟨rfl, ?_⟩
  obtain ⟨-, rfl⟩ | htook := Peer.read_cases (h.sound p) (h.sound p.other) (h.inv p) hd hread
  · exact ⟨rfl, .inl rfl⟩
  · obtain ⟨q, mid, _, -, hacknowledged, -, -, hbody⟩ := htook.channel
    refine ⟨htook.written, .inr ⟨d, ⟨List.mem_map_of_mem hd, htook.due.lt⟩, ?_⟩⟩
    rw [link, Function.update_self, update_other]
    exact Peer.linkTo_took hacknowledged hbody (h.sound p).dated htook.fillings htook.written

/-- What the packets of the other party say to `p` is true. -/
structure Truthful (net : Peers) (p : Party) : Prop where
  /-- No subchannel of `p` rejects an acknowledgement. -/
  accepted : ∀ d ∈ (net p.other).written, ∀ e,
    (NetChannel.readPacket d.bytes (net p).channel).1 = .err e → e.ofSender = false
  /-- The filling of a subchannel that is freed was accepted exactly once. -/
  freed : ∀ index net' k, net.step (.deliver p.other index) = some net' →
    ((net p).channel.outgoingSubchannels k).state = waitingForAck →
    ((net' p).channel.outgoingSubchannels k).state = free →
    (net' p.other).accepted.count (k, (net p).fillings k) = 1
  /-- The filling of a subchannel that is to be sent again was not accepted, and
  never will be from a packet that was already written. -/
  resent : ∀ index net' k, net.step (.deliver p.other index) = some net' →
    ((net p).channel.outgoingSubchannels k).state = waitingForAck →
    ((net' p).channel.outgoingSubchannels k).state = waitingToSend →
    (net' p.other).accepted.count (k, (net p).fillings k) = 0 ∧
      ∀ d ∈ (net p).written, d.carried = some (k, (net p).fillings k) → net'.Stale p d

/-- Acknowledgements between two channels are true, whatever the network loses,
delays, reorders or duplicates. -/
theorem run_acknowledgements {configuration : Party → Configuration} {actions : List Action}
    (hmax : ∀ p, 256 ≤ (configuration p).server.maxReliablePacketSize ∧
      (configuration p).server.maxReliablePacketSize ≤ 2047)
    (hsmall : ∀ action ∈ actions, action.Small)
    (hrun : (new c configuration).run actions = some net) (p : Party) : net.Truthful p := by
  obtain ⟨h, -⟩ := (Honest.new hmax).run hsmall hrun
  refine ⟨?accepted, fun index net' k hstep hk hfree => ?freed,
    fun index net' k hstep hk hready => ?resent⟩
  case accepted =>
    intro d hd e he
    obtain ⟨q, hq, ⟨-, e', hsender, -, herr⟩ | ⟨-, mid, hheader, -⟩⟩ :=
      Peer.readPacket_cases (h.sound p) (h.sound p.other) (h.inv p) hd
    · rw [herr] at he
      cases he
      exact hsender
    · rw [hq.bytes] at he
      have hpanic : (NetChannel.readPacket q.bytes (net p).channel).1 ≠ .panic := by
        rw [he]
        simp
      exact (NetChannel.readPacket_bodyRead hheader rfl hpanic).2 e he
  case freed =>
    obtain ⟨hother, -, hsame | ⟨d, hfresh, hlink⟩⟩ := h.deliver hstep
    · simp [hsame, hk] at hfree
    · have hslot : ((net' p).channel.outgoingSubchannels k).slot =
          ((net.link p).settle d.ack).slot k := congrArg (fun l => l.slot k) hlink
      have hbusy : (net.link p).slot k ≠ .free := fun hslot => by
        simp [SubChannel.slot_eq_free.mp hslot] at hk
      rw [hother]
      exact (h.inv p).freed hfresh hbusy (hslot ▸ SubChannel.slot_eq_free.mpr hfree)
  case resent =>
    obtain ⟨hother, hwritten, hsame | ⟨d, hfresh, hlink⟩⟩ := h.deliver hstep
    · simp [hsame, hk] at hready
    · have hslot : ((net' p).channel.outgoingSubchannels k).slot =
          ((net.link p).settle d.ack).slot k := congrArg (fun l => l.slot k) hlink
      have hready' := hslot ▸ SubChannel.slot_eq_ready.mpr hready
      refine ⟨hother ▸ (h.inv p).resent hfresh hready', fun d' hd' hcarried => ?_⟩
      have hstale := ((h.inv p).settle hfresh).ready_stale hready'
        (f := d'.frame) (List.mem_map_of_mem hd') hcarried
      have hdeliver : (Action.deliver p.other index).Small := trivial
      refine (h.step hdeliver hstep).stale (hwritten ▸ hd') ?_
      rw [hother]
      exact hstale

end

/-- A transfer that is written, read and acknowledged. -/
theorem run_acknowledgements_print : ∃ net,
    (new 5#32 fun _ => Configuration.loadDefault).run
      [.queue .a [.print ⟨"x"⟩], .write .a [], .deliver .a 0, .write .b []] = some net ∧
      net.Truthful .a := by
  have hrun : ((new 5#32 fun _ => Configuration.loadDefault).run
      [.queue .a [.print ⟨"x"⟩], .write .a [], .deliver .a 0, .write .b []]).isSome := by
    decide +kernel
  have hencode : NetChannel.encodeMessages [.print ⟨"x"⟩] = .ok [7, 30, 0] := by decide +kernel
  refine ⟨_, (Option.some_get hrun).symm,
    run_acknowledgements (fun _ => ⟨by decide, by decide⟩) ?_ (Option.some_get hrun).symm .a⟩
  simp [Action.Queues, hencode]

end Peers

end QuickplayServer
