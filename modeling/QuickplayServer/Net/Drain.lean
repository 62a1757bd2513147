import QuickplayServer.Net.Remaining
import QuickplayServer.Net.Returned

/-!
# QuickplayServer.Net.Drain

Rounds without loss empty the queue of a sender.

In a round the sender writes a packet that the other party reads, and reads one
that the other party writes (`Peers.round`).  After the first round every
subchannel was answered; from then on each round frees a subchannel or pops a
transfer, because the fragments that a packet carries are never refused: the
header is sent before what is behind it.
-/

namespace QuickplayServer

open SubChannelState

namespace Peer

variable {bare : Prop} {sender receiver peer later : Peer} {c : BitVec 32}

/-- What a step that queues nothing does to a sender. -/
structure Onward (peer later : Peer) : Prop where
  configuration : later.channel.configuration = peer.channel.configuration
  queued : later.queued = peer.queued
  queue : (later.channel.outgoingReliableData 0).map (·.data) <:+
    (peer.channel.outgoingReliableData 0).map (·.data)
  first : peer.channel.HeaderFirst → later.channel.HeaderFirst

/-- A peer is as far as it is. -/
theorem Onward.refl (peer : Peer) : Onward peer peer := ⟨rfl, rfl, List.suffix_refl _, id⟩

/-- What goes on twice goes on. -/
theorem Onward.trans {mid : Peer} (h : Onward peer mid) (h' : Onward mid later) :
    Onward peer later where
  configuration := h'.configuration.trans h.configuration
  queued := h'.queued.trans h.queued
  queue := h'.queue.trans h.queue
  first hfirst := h'.first (h.first hfirst)

section

variable [BitstreamIo] [Crc]

omit [BitstreamIo] in
/-- Filling a subchannel and writing its section only takes the peer on. -/
theorem onward_mark (hs : peer.Sound c) {reliable : Option Section}
    (hcarries : peer.channel.filled.Carries reliable) :
    Onward peer (peer.refill.mark reliable) := by
  have hothers := NetChannel.sent_filled_others peer.channel reliable
  have hdata : ((peer.channel.filled.sent reliable).outgoingReliableData 0).map (·.data) =
      (peer.channel.outgoingReliableData 0).map (·.data) := by
    refine Eq.trans ?_ (filled_data peer.channel)
    cases reliable <;> rfl
  refine ⟨?_, rfl, hdata ▸ List.suffix_refl _, fun h => (h.filled hs.books).sent hcarries⟩
  show (peer.channel.filled.sent reliable).configuration = _
  rw [hothers]

/-- Writing a packet only takes the peer on. -/
theorem onward_write (hs : peer.Sound c) {messages : List Message}
    (hwrite : peer.write messages = some later) : Onward peer later := by
  obtain ⟨reliable, hcarries, rfl | ⟨-, rfl⟩⟩ := write_cases hs hwrite
  · exact onward_mark hs hcarries
  · obtain ⟨hconfiguration, hqueued, hqueue, hfirst⟩ := onward_mark hs hcarries
    exact ⟨hconfiguration, hqueued, hqueue, hfirst⟩

omit [BitstreamIo] [Crc] in
/-- Acknowledgements only take the peer on. -/
theorem Settles.onward (h : Settles peer later) : Onward peer later := by
  refine ⟨h.configuration, h.queued, ?_, fun hfirst k hbusy hstart => ?_⟩
  · obtain ⟨hsame, -⟩ | ⟨stream, hqueue, -⟩ := h.queue
    · have hdata := congrArg (List.map Prod.fst) hsame
      rw [List.map_map, List.map_map] at hdata
      exact hdata ▸ List.suffix_refl _
    · rw [hqueue, List.map_cons]
      exact List.suffix_cons _ _
  · obtain ⟨hfree, -⟩ | ⟨hsame, -, hbefore⟩ := h.subchannels k
    · exact absurd hfree hbusy
    · exact hfirst k (hbefore hbusy) (hsame ▸ hstart)

/-! ## Half a round -/

/-- A packet without messages can be written. -/
theorem write_some (hs : peer.Sound c)
    (hfits : ∀ stream ∈ peer.channel.outgoingReliableData 0,
      stream.data.length ≠ peer.channel.configuration.server.maxReliablePacketSize)
    (hnext : peer.channel.outSequenceNr + 1 < 2 ^ 32) :
    ∃ reliable, peer.channel.filled.Carries reliable ∧
      peer.write [] = some ((peer.refill.mark reliable).emit reliable []) := by
  have hmessages : ∀ m ∈ ([] : List Message), m.Writable := List.forall_mem_nil _
  obtain ⟨_, -, hok⟩ := NetChannel.writePacket_ok hs.books (NetChannel.filled_few hs.books hs.few)
    hfits hs.numbered hnext hmessages
  have hwrite :
      ∃ later, peer.write [] = some later ∧ later.written.length = peer.written.length + 1 := by
    unfold write
    rw [hok]
    exact ⟨_, rfl, by simp⟩
  obtain ⟨later, hwrite, hlength⟩ := hwrite
  obtain ⟨reliable, hcarries, rfl | ⟨-, rfl⟩⟩ := write_cases hs hwrite
  · exact absurd hlength (by simp [mark, refill])
  · exact ⟨reliable, hcarries, hwrite⟩

/-- A datagram can be read unless `read_packet` panics. -/
theorem read_of_ne_panic {d : Datagram}
    (hpanic : (NetChannel.readPacket d.bytes peer.channel).1 ≠ .panic) :
    ∃ later, peer.read d = some later ∧
    later.channel = (NetChannel.readPacket d.bytes peer.channel).2 := by
  unfold read
  cases hread : NetChannel.readPacket d.bytes peer.channel with
  | mk outcome channel =>
      rw [hread] at hpanic
      cases outcome with
      | ok messages => exact ⟨_, rfl, rfl⟩
      | err e => exact ⟨_, rfl, rfl⟩
      | panic => exact absurd rfl hpanic

/-- Nothing of the transfer at the front has landed, and the section does not start it. -/
structure Early (sender receiver : Peer) (s : Section) : Prop where
  landed : ∀ stream ∈ (sender.channel.outgoingReliableData 0).head?,
    sender.landed receiver stream.sentFragments = ∅
  start : s.fragment.start ≠ 0

/-- A packet that is due is read, and its section is kept unless it is early. -/
theorem Transfers.reads (h : Transfers bare sender receiver) (hsupplies : sender.Supplies bare c)
    (hs : sender.Sound c) (hr : receiver.Sound c) (hlink : (sender.linkTo receiver).Inv)
    (hback : (receiver.linkTo sender).Inv) {d : Datagram} (hd : d ∈ sender.written)
    (hdue : NetChannel.Due receiver.channel d.sequence) {p : Packet} (hp : d.Writes c p)
    (hbare : p.messages = []) (hholds : ∀ s, p.reliable = some s → sender.channel.Holds s) :
    ∃ receiver', receiver.read d = some receiver' ∧ Took c d receiver receiver' ∧
      ∀ s, p.reliable = some s →
        (sender.linkTo receiver').Kept s.subchannel ∨ Early sender receiver s := by
  obtain ⟨hnot, -⟩ | ⟨-, mid, hheader, hacknowledged⟩ :=
    readPacket_cases_of_writes hr hs hback hd hp
  · exact absurd hdue hnot
  have hincoming : mid.incomingReliableData = receiver.channel.incomingReliableData := by
    rw [hacknowledged.others]
  have hstate : mid.inReliableState = receiver.channel.inReliableState := by
    rw [hacknowledged.others]
  suffices hreads : (NetChannel.readPacket p.bytes receiver.channel).1 ≠ .panic ∧
      ∀ s, p.reliable = some s → Early sender receiver s ∨
        (NetChannel.readPacket p.bytes receiver.channel).2.inReliableState =
          receiver.channel.inReliableState ^^^ (1#8 <<< s.subchannel.val) by
    obtain ⟨hpanic, hsection⟩ := hreads
    rw [← hp.bytes] at hpanic hsection
    obtain ⟨receiver', hread, hchannel⟩ := read_of_ne_panic hpanic
    refine ⟨receiver', hread, ?_, fun s hreliable => ?_⟩
    · obtain ⟨hnot, -⟩ | htook := read_cases hr hs hback hd hread
      · exact absurd hdue hnot
      · exact htook
    · have hbrings := Brings.of_fresh hlink hd hdue.lt hp hreliable fun _ _ => hholds s hreliable
      obtain hearly | htoggled := hsection s hreliable
      · exact .inr hearly
      · exact .inl ((kept_toggle hbrings.kept (hchannel ▸ htoggled) s.subchannel).mpr (.inl rfl))
  cases hreliable : p.reliable with
  | none =>
      rw [NetChannel.readPacket_of_none hheader hreliable,
        NetChannel.readMessages_behind_bare hbare]
      exact ⟨by simp, by simp⟩
  | some s =>
      have hbrings := Brings.of_fresh hlink hd hdue.lt hp hreliable fun _ _ => hholds s hreliable
      obtain ⟨stream, queue, hqueue, hdata⟩ := hbrings.holds.data
      obtain ⟨messages, hdecodes, -⟩ := hsupplies.front hqueue
      obtain ⟨hrefused, hnone, hstart⟩ | ⟨later, hread, htoggled, -⟩ :=
        h.takes hs hbrings hheader hincoming hreliable hqueue hdata hdecodes
      · rw [hrefused]
        refine ⟨by simp, fun s' hs' => .inl ?_⟩
        obtain rfl := Option.some.inj hs'
        exact ⟨fun front hfront => by simp_all, hstart⟩
      · rw [hread, NetChannel.readMessages_behind_bare hbare]
        refine ⟨by simp, fun s' hs' => .inr ?_⟩
        obtain rfl := Option.some.inj hs'
        rw [← hstate]
        exact htoggled

/-- The packet that was just written is read by a party that it is due at. -/
theorem Transfers.reads_emitted (hs : peer.Sound c) {reliable : Option Section}
    (hcarries : peer.channel.filled.Carries reliable)
    (hsender : (peer.refill.mark reliable).emit reliable [] = sender)
    (h : Transfers bare sender receiver)
    (hsupplies : sender.Supplies bare c) (hs' : sender.Sound c) (hr : receiver.Sound c)
    (hlink : (sender.linkTo receiver).Inv) (hback : (receiver.linkTo sender).Inv)
    (hdue : NetChannel.Due receiver.channel peer.channel.outSequenceNr) :
    ∃ receiver', receiver.read ((peer.refill.mark reliable).datagram reliable []) = some receiver' ∧
      Took c ((peer.refill.mark reliable).datagram reliable []) receiver receiver' ∧
      ∀ s, reliable = some s →
        (sender.linkTo receiver').Kept s.subchannel ∨ Early sender receiver s := by
  have hwritten : (peer.refill.mark reliable).datagram reliable [] ∈ sender.written := by
    simp [← hsender, emit]
  have hsequence : ((peer.refill.mark reliable).datagram reliable []).sequence =
      peer.channel.outSequenceNr := by
    show (peer.channel.filled.sent reliable).outSequenceNr = _
    rw [NetChannel.sent_filled_others]
  have hwrites := (hs.mark_refill hcarries).datagram_writes reliable []
  exact h.reads hsupplies hs' hr hlink hback hwritten (hsequence ▸ hdue) hwrites rfl
    fun s hreliable => hsender ▸ holds_emitted hcarries hreliable

/-- What an accepted header did to the sending side. -/
theorem Took.acknowledged {d : Datagram} (h : Took c d peer later) :
    ∃ mid, NetChannel.Acknowledged d.sequence d.sequenceAck d.reliableState
        { peer.channel with hasSeenChallenge := true } mid ∧
      later.channel.outgoingSubchannels = mid.outgoingSubchannels ∧
      later.channel.outgoingReliableData = mid.outgoingReliableData ∧
      later.channel.inSequenceNr = d.sequence ∧
      later.channel.outSequenceNr = peer.channel.outSequenceNr := by
  obtain ⟨p, mid, _, -, hacknowledged, -, -, hbody⟩ := h.channel
  have hothers := took_others hacknowledged hbody
  exact ⟨mid, hacknowledged, by rw [hothers], by rw [hothers], by rw [hothers], by rw [hothers]⟩

omit [BitstreamIo] [Crc] in
/-- A subchannel was last sent in this packet or in one before it. -/
theorem sendSeqNr_le (hlink : (peer.linkTo receiver).Inv) {reliable : Option Section}
    (hcarries : peer.channel.filled.Carries reliable) {k : Fin MAX_SUBCHANNELS}
    (hstate : ((peer.refill.mark reliable).channel.outgoingSubchannels k).state = waitingForAck) :
    ((peer.refill.mark reliable).channel.outgoingSubchannels k).sendSeqNr ≤
      peer.channel.outSequenceNr := by
  have hsteps :
      ToggleLink.Steps (peer.linkTo receiver) ((peer.refill.mark reliable).linkTo receiver) :=
    steps_refill.trans (steps_mark hcarries)
  have hle := (((hsteps.inv hlink).slots k).sent _ (SubChannel.slot_of_waitingForAck hstate)).1
  have hnext : ((peer.refill.mark reliable).linkTo receiver).next = peer.channel.outSequenceNr := by
    show (peer.channel.filled.sent reliable).outSequenceNr = _
    rw [NetChannel.sent_filled_others]
  omega

end

end Peer

/-! ## The network -/

namespace Action

variable [BitstreamIo]

/-- What a party queues is not of the size that cannot be sent. -/
def Fits (max : Party → Nat) : Action → Prop
  | .queue p messages => ∀ data, NetChannel.encodeMessages messages = .ok data → data.length ≠ max p
  | _ => True

end Action

namespace Peers

/-- The packets of `p` that the other party has not seen are few enough for the
next one to be read. -/
def Near (net : Peers) (p : Party) : Prop :=
  (net p).channel.outSequenceNr - ((net p.other).channel.inSequenceNr + 1) ≤
    (net p.other).channel.configuration.server.maxPacketsDropped

section

variable [BitstreamIo] [Crc]

/-- `p` writes a packet without messages, and the other party reads it. -/
def send (p : Party) (self : Peers) : Option Peers :=
  self.run [.write p [], .deliver p (self p).written.length]

/-- A packet of `p` and one of the other party, both without loss. -/
def round (p : Party) (self : Peers) : Option Peers := (self.send p).bind (send p.other)

/-- Two parties that can send all they have queued. -/
structure Drains (bare : Prop) (c : BitVec 32) (max : Party → Nat) (net : Peers) : Prop where
  reliable : net.Reliable bare c
  first : ∀ p, (net p).channel.HeaderFirst
  size : ∀ p, (net p).channel.configuration.server.maxReliablePacketSize = max p
  fits : ∀ p, ∀ data ∈ ((net p).channel.outgoingReliableData 0).map (·.data), data.length ≠ max p

variable {bare : Prop} {c : BitVec 32} {max : Party → Nat} {p : Party} {net net' : Peers}

/-- Every step that queues nothing goes on with what is queued. -/
theorem Honest.onward (h : net.Honest c) {action : Action}
    (hqueues : ∀ p messages, action ≠ .queue p messages)
    (hstep : net.step action = some net') (q : Party) : (net q).Onward (net' q) := by
  cases action with
  | queue p messages => exact absurd rfl (hqueues p messages)
  | write p messages =>
      obtain ⟨peer, hwrite, rfl⟩ := Option.map_eq_some_iff.mp hstep
      exact forall_update (P := fun q later => (net q).Onward later)
        (Peer.onward_write (h.sound p) hwrite) (.refl _) q
  | deliver p index =>
      obtain ⟨d, hd, peer, hread, rfl⟩ := step_deliver hstep
      have hsettles := Peer.read_settles (h.sound p.other) (h.sound p) (h.inv_other p) hd hread
      exact forall_update (P := fun q later => (net q).Onward later) hsettles.onward (.refl _) q

/-- Two new channels have nothing to send. -/
theorem Drains.new {configuration : Party → Configuration}
    (hmax : ∀ p, 256 ≤ (configuration p).server.maxReliablePacketSize ∧
      (configuration p).server.maxReliablePacketSize ≤ 2047) :
    (Peers.new c configuration).Drains bare c fun p =>
      (configuration p).server.maxReliablePacketSize where
  reliable := .new hmax
  first p :=
    by simp [Peers.new, Peer.new, NetChannel.new, NetChannel.HeaderFirst, SubChannel.newFree]
  size _ := rfl
  fits p := by simp [Peers.new, Peer.new, NetChannel.new]

/-- Steps that only take the peers on keep what is known of their queues. -/
theorem Drains.onward (h : net.Drains bare c max) (hreliable : net'.Reliable bare c)
    (honward : ∀ q, (net q).Onward (net' q)) : net'.Drains bare c max where
  reliable := hreliable
  first q := (honward q).first (h.first q)
  size q := by rw [(honward q).configuration, h.size]
  fits q data hdata := h.fits q data ((honward q).queue.subset hdata)

/-- Each action keeps what is known of the queues, if what it queues fits a packet. -/
theorem Drains.step (h : net.Drains bare c max) {action : Action}
    (hrecoverable : action.Recoverable)
    (hbare : bare → action.Bare) (hfits : action.Fits max) (hstep : net.step action = some net') :
    net'.Drains bare c max := by
  obtain ⟨hreliable, -⟩ := h.reliable.step hrecoverable hbare hstep
  cases action with
  | write q messages => exact h.onward hreliable (h.reliable.honest.onward (by simp) hstep)
  | deliver q index => exact h.onward hreliable (h.reliable.honest.onward (by simp) hstep)
  | queue q messages =>
      obtain ⟨peer, hqueue, rfl⟩ := Option.map_eq_some_iff.mp hstep
      obtain ⟨stream, hencode, -, -, rfl⟩ | rfl := Peer.queue_cases hqueue
      · refine ⟨hreliable,
          forall_update (P := fun _ peer => peer.channel.HeaderFirst) (h.first q) (h.first _),
          forall_update
            (P := fun q peer => peer.channel.configuration.server.maxReliablePacketSize = max q)
            (h.size q) (h.size _),
          forall_update
            (P := fun q peer => ∀ data ∈ (peer.channel.outgoingReliableData 0).map (·.data),
              data.length ≠ max q) (fun data hdata => ?_) (h.fits _)⟩
        obtain hdata | rfl : data ∈ ((net q).channel.outgoingReliableData 0).map (·.data) ∨
            data = stream.data := by simpa [or_comm, eq_comm] using hdata
        · exact h.fits q data hdata
        · exact hfits _ hencode
      · rw [Function.update_eq_self]
        exact h

/-- `p` wrote a packet with `reliable` in it, and the other party read it. -/
structure Sent (c : BitVec 32) (net : Peers) (p : Party) (reliable : Option Section)
    (net' : Peers) :
    Prop where
  carries : (net p).channel.filled.Carries reliable
  sender : net' p = ((net p).refill.mark reliable).emit reliable []
  took :
    Peer.Took c (((net p).refill.mark reliable).datagram reliable []) (net p.other) (net' p.other)
  kept : ∀ s, reliable = some s →
    (net'.link p).Kept s.subchannel ∨ Peer.Early (net' p) (net p.other) s

/-- A party with a number left can write a packet, and the other one, if it is near
enough, can read it. -/
theorem Drains.send (hdrains : net.Drains bare c max)
    (hnext : (net p).channel.outSequenceNr + 1 < 2 ^ 32) (hnear : net.Near p) :
    ∃ net' reliable, net.send p = some net' ∧ net'.Drains bare c max ∧
      (∀ q, (net q).Onward (net' q)) ∧ (∀ q, net.HandedOver q → net'.HandedOver q) ∧
        net.Sent c p reliable net' := by
  have h := hdrains.reliable
  have hfits : ∀ stream ∈ (net p).channel.outgoingReliableData 0,
      stream.data.length ≠ (net p).channel.configuration.server.maxReliablePacketSize :=
    fun stream hstream => hdrains.size p ▸ hdrains.fits p _ (List.mem_map_of_mem hstream)
  obtain ⟨reliable, hcarries, hwrite⟩ := Peer.write_some (h.honest.sound p) hfits hnext
  have hindex : (((net p).refill.mark reliable).emit reliable []).written[(net p).written.length]? =
      some (((net p).refill.mark reliable).datagram reliable []) := by
    simp [Peer.emit, Peer.mark, Peer.refill]
  generalize hsender : ((net p).refill.mark reliable).emit reliable [] = sender at hwrite hindex
  -- the packet is written
  have hstep : net.step (.write p []) = some (Function.update net p sender) :=
    Option.map_eq_some_iff.mpr ⟨sender, hwrite, rfl⟩
  have hrecoverable : (Action.write p []).Recoverable := trivial
  have hbare : bare → (Action.write p []).Bare := fun _ => rfl
  obtain ⟨hmid, -⟩ := h.step hrecoverable hbare hstep
  have honward := h.honest.onward (by simp) hstep
  have hhanded : ∀ q, HandedOver q net → HandedOver q (Function.update net p sender) := by
    intro q hq
    have hlegible : net.Legible c q (.write p []) := trivial
    exact hq.step h hmid hlegible hstep
  have hself : Function.update net p sender p = sender := Function.update_self _ _ _
  have hother := update_other net p sender
  generalize Function.update net p sender = mid at hstep hmid honward hhanded hself hother
  -- and read
  have htransfers := hmid.transfers p
  have hlink := hmid.honest.inv p
  have hback := hmid.honest.inv_other p
  have hr := hmid.honest.sound p.other
  simp only [link, hself, hother] at htransfers hlink hback hr
  obtain ⟨receiver, hread, htook, hkept⟩ :=
    htransfers.reads_emitted (h.honest.sound p) hcarries hsender
    (hself ▸ hmid.supplies p) (hself ▸ hmid.honest.sound p) hr hlink hback
    ⟨(h.honest.inv p).seen_lt, hnear⟩
  have hdeliver : Peers.step mid (.deliver p (net p).written.length) =
      some (Function.update mid p.other receiver) := by
    simp only [Peers.step, hself, hindex, hother]
    exact Option.map_eq_some_iff.mpr ⟨receiver, hread, rfl⟩
  have hrecoverable' : (Action.deliver p (net p).written.length).Recoverable := trivial
  obtain ⟨hnext', -⟩ := hmid.step hrecoverable' (fun _ => trivial) hdeliver
  have honward' := hmid.honest.onward (by simp) hdeliver
  have hself' : Function.update mid p.other receiver p = sender :=
    (Function.update_of_ne p.ne_other _ _).trans hself
  have hother' : Function.update mid p.other receiver p.other = receiver :=
    Function.update_self _ _ _
  have hboth := fun q => (honward q).trans (honward' q)
  have hhanded' : ∀ q, HandedOver q mid → HandedOver q (Function.update mid p.other receiver) := by
    intro q hq
    obtain rfl | rfl := p.eq_or_eq_other q
    · unfold HandedOver at hq ⊢
      rw [hself, hother] at hq
      rw [hself', hother']
      exact hq.read_emitted (h.honest.sound q) hcarries hsender htransfers (hself ▸ hmid.supplies q)
        (hself ▸ hmid.honest.sound q) hr hlink hback hread
    · have hlegible : Legible c p.other mid (.deliver p (net p).written.length) :=
        fun heq => absurd heq p.ne_other
      exact hq.step hmid hnext' hlegible hdeliver
  refine ⟨_, reliable, Run.run_cons_eq_some.mpr ⟨mid, hstep, Run.run_cons_eq_some.mpr
    ⟨_, hdeliver, rfl⟩⟩, hdrains.onward hnext' hboth, hboth, fun q hq => hhanded' q (hhanded q hq),
    hcarries, ?_, ?_, ?_⟩
  · rw [hself', hsender]
  · rw [hother']
    exact htook
  · simp only [link, hself', hother']
    exact hkept

namespace Sent

variable {reliable : Option Section}

/-- The sender has filled a subchannel, sent it, and taken the next number. -/
theorem sender_channel (h : net.Sent c p reliable net') : (net' p).channel =
    { (net p).channel.filled.sent reliable with
      outSequenceNr := (net p).channel.outSequenceNr + 1 } := by
  rw [h.sender]
  show { (net p).channel.filled.sent reliable with
    outSequenceNr := ((net p).channel.filled.sent reliable).outSequenceNr + 1 } = _
  rw [NetChannel.sent_filled_others]

/-- Sending acknowledges nothing, so as much remains as before. -/
theorem remaining (h : net.Sent c p reliable net') :
    (net' p).channel.remaining = (net p).channel.remaining := by
  rw [h.sender_channel]
  show ((net p).channel.filled.sent reliable).remaining = _
  rw [NetChannel.remaining_sent, NetChannel.remaining_filled]

/-- Sending leaves the number that was last received. -/
theorem inSequenceNr_self (h : net.Sent c p reliable net') :
    (net' p).channel.inSequenceNr = (net p).channel.inSequenceNr := by
  rw [h.sender_channel]
  show ((net p).channel.filled.sent reliable).inSequenceNr = _
  rw [NetChannel.sent_filled_others]

/-- The other party read a header with the numbers of the sender. -/
theorem acknowledged (h : net.Sent c p reliable net') :
    ∃ mid, NetChannel.Acknowledged (net p).channel.outSequenceNr (net p).channel.inSequenceNr
        (net p).channel.inReliableState
        { (net p.other).channel with hasSeenChallenge := true } mid ∧
      (net' p.other).channel.outgoingSubchannels = mid.outgoingSubchannels ∧
      (net' p.other).channel.outgoingReliableData = mid.outgoingReliableData ∧
      (net' p.other).channel.inSequenceNr = (net p).channel.outSequenceNr ∧
      (net' p.other).channel.outSequenceNr = (net p.other).channel.outSequenceNr := by
  obtain ⟨mid, hacknowledged, hrest⟩ := h.took.acknowledged
  have hothers := NetChannel.sent_filled_others (net p).channel reliable
  have hheader :
      ((net p).channel.filled.sent reliable).outSequenceNr = (net p).channel.outSequenceNr ∧
      ((net p).channel.filled.sent reliable).inSequenceNr = (net p).channel.inSequenceNr ∧
      ((net p).channel.filled.sent reliable).inReliableState = (net p).channel.inReliableState := by
    rw [hothers]
    exact ⟨rfl, rfl, rfl⟩
  simp only [Peer.datagram, Peer.mark, Peer.refill, hheader] at hacknowledged hrest
  exact ⟨mid, hacknowledged, hrest⟩

/-- What is sent once all packets were answered is kept: were it early, the
header would be waiting to be sent, and be sent first. -/
theorem kept_of_answered (h : net.Sent c p reliable net') (hs : (net p).Sound c)
    (hs' : (net' p).Sound c) (hfirst : (net p).channel.HeaderFirst)
    (hanswered : (net p).channel.Answered) {s : Section} (hreliable : reliable = some s) :
    (net'.link p).Kept s.subchannel := by
  refine (h.kept s hreliable).resolve_right fun hearly => hearly.start ?_
  subst hreliable
  have hbooks := hs'.books
  have hchannel := h.sender_channel
  have hsub : ∀ k, (net' p).channel.outgoingSubchannels k =
      ((net p).channel.filled.sent (some s)).outgoingSubchannels k := fun k => by rw [hchannel]
  have hbusy : ((net' p).channel.outgoingSubchannels s.subchannel).state ≠ free := by
    rw [hsub]
    simp [NetChannel.sent, NetChannel.marked]
  obtain ⟨stream, queue, hqueue⟩ := hbooks.front hbusy
  have hnone := hearly.landed stream (Bookkeeping.mem_head? hqueue)
  have hpos : 0 < stream.sentFragments := by
    have hnum := hbooks.busy s.subchannel hbusy
    have hend := hbooks.end_le hqueue hbusy
    unfold OutgoingReliableData.sentFragments
    omega
  -- the first fragment is in a subchannel
  obtain ⟨k, hk⟩ : ∃ k, 0 ∈ ((net' p).channel.outgoingSubchannels k).range := by
    by_contra hall
    have hzero : 0 ∈ (net' p).landed (net p.other) stream.sentFragments :=
      InFlight.mem_landed.mpr ⟨hpos, fun k hk => absurd ⟨k, hk⟩ hall⟩
    rw [hnone] at hzero
    exact Finset.notMem_empty 0 hzero
  rw [SubChannel.range, Finset.mem_Ico] at hk
  have hbusy' : ((net' p).channel.outgoingSubchannels k).state ≠ free := fun hfree => by
    have := hbooks.free_empty k hfree
    omega
  rw [hsub] at hbusy'
  have hstart : ((net p).channel.filled.outgoingSubchannels k).startFragment 0 = 0 := by
    rw [← NetChannel.sent_startFragment _ (some s), ← hsub]
    omega
  exact hanswered.filled.carries_header (hfirst.filled hs.books) h.carries
    (mt (NetChannel.sent_state_eq_free h.carries k).mpr hbusy') hstart

/-- Once all packets were answered, the answer to the next one is progress. -/
theorem remaining_lt (h : net.Sent c p reliable net') (hs : (net p).Sound c)
    (hs' : (net' p).Sound c)
    (hfirst : (net p).channel.HeaderFirst) (hanswered : (net p).channel.Answered)
    (hmore : (net p).channel.outgoingReliableData 0 ≠ []) {sequence sequenceAck : Nat}
    {mid : NetChannel}
    (hacknowledged :
      NetChannel.Acknowledged sequence sequenceAck (net' p.other).channel.inReliableState
      { (net' p).channel with hasSeenChallenge := true } mid) :
    mid.remaining < (net p).channel.remaining := by
  have hchannel := h.sender_channel
  have hb : Bookkeeping { (net' p).channel with hasSeenChallenge := true } :=
    hs'.books.congr rfl rfl rfl
  have hremaining : ({ (net' p).channel with hasSeenChallenge := true } : NetChannel).remaining =
      (net p).channel.remaining := h.remaining
  obtain ⟨stream, queue, hqueue⟩ := List.exists_cons_of_ne_nil hmore
  rw [← hremaining]
  cases hreliable : reliable with
  | none =>
      have hcarries := h.carries
      rw [hreliable] at hcarries hchannel
      obtain ⟨hfree, hsame, hsent⟩ := hanswered.carries_none hcarries
      have hqueue' : ({ (net' p).channel with hasSeenChallenge := true } :
          NetChannel).outgoingReliableData 0 = stream :: queue := by
        rw [hchannel]
        show (net p).channel.filled.outgoingReliableData 0 = _
        rw [hsame, hqueue]
      refine hacknowledged.remaining_lt hb hqueue'
        (.inr ⟨hsent stream (by simp [hqueue]), fun k => ?_⟩)
      rw [hacknowledged.subchannels]
      refine SubChannel.settle_of_free ?_ _ _
      rw [hchannel]
      exact hfree k
  | some s =>
      have hkept := h.kept_of_answered hs hs' hfirst hanswered hreliable
      have hstate : ((net' p).channel.outgoingSubchannels s.subchannel).state = waitingForAck := by
        rw [hchannel, hreliable]
        simp [NetChannel.sent, NetChannel.marked]
      obtain ⟨front, rest, hfront⟩ := hb.front (k := s.subchannel) (by simp [hstate])
      refine hacknowledged.remaining_lt hb hfront (.inl ⟨s.subchannel, by simp [hstate], ?_⟩)
      have hagrees : NetChannel.Agrees { (net' p).channel with hasSeenChallenge := true }
          (net' p.other).channel.inReliableState s.subchannel = true := beq_iff_eq.mpr hkept.symm
      rw [hacknowledged.subchannels, hagrees]
      exact SubChannel.settle_of_agrees hstate _

end Sent

/-- What a round does. -/
structure Rounds (net : Peers) (p : Party) (net' : Peers) : Prop where
  near : ∀ q, net'.Near q
  outSequenceNr : ∀ q, (net' q).channel.outSequenceNr = (net q).channel.outSequenceNr + 1
  queued : (net' p).queued = (net p).queued
  handedOver : net.HandedOver p → net'.HandedOver p
  answered : (net' p).channel.Answered
  remaining_le : (net' p).channel.remaining ≤ (net p).channel.remaining
  remaining_lt : (net p).channel.Answered → (net p).channel.outgoingReliableData 0 ≠ [] →
    (net' p).channel.remaining < (net p).channel.remaining

/-- A round can be done in every state of a run in which the numbers are near each
other and not at their end. -/
theorem Drains.round (h : net.Drains bare c max) (hnear : ∀ q, net.Near q)
    (hnext : ∀ q, (net q).channel.outSequenceNr + 1 < 2 ^ 32) (p : Party) :
    ∃ net', net.round p = some net' ∧ net'.Drains bare c max ∧ net.Rounds p net' := by
  obtain ⟨mid, reliable, hsend, hmid, honward, hhanded, hsent⟩ := h.send (hnext p) (hnear p)
  obtain ⟨-, -, -, -, hin, hout⟩ := hsent.acknowledged
  have hout' : (mid p).channel.outSequenceNr = (net p).channel.outSequenceNr + 1 := by
    rw [hsent.sender_channel]
  have hnear' : mid.Near p.other := by
    have := hnear p.other
    simp only [Near, Party.other_other] at this ⊢
    rw [hout, hsent.inSequenceNr_self, (honward p).configuration]
    exact this
  obtain ⟨net', reliable', hsend', hnet', honward', hhanded', hsent'⟩ :=
    hmid.send (hout ▸ hnext p.other) hnear'
  obtain ⟨later, hacknowledged, hsubchannels, hqueue, hin', hout''⟩ := hsent'.acknowledged
  simp only [Party.other_other] at hacknowledged hsubchannels hqueue hin' hout''
  have hother : (net' p.other).channel.outSequenceNr = (mid p.other).channel.outSequenceNr + 1 := by
    rw [hsent'.sender_channel]
  have hremaining : (net' p).channel.remaining = later.remaining := by
    rw [NetChannel.remaining, NetChannel.remaining, hqueue]
  have hbooks : Bookkeeping { (mid p).channel with hasSeenChallenge := true } :=
    (hmid.reliable.honest.sound p).books.congr rfl rfl rfl
  refine ⟨net', by rw [Peers.round, hsend]; exact hsend', hnet', fun q => ?near, fun q => ?out,
    ((honward p).trans (honward' p)).queued, fun hp => hhanded' p (hhanded p hp),
    fun k => ?answered, ?le, fun hanswered hmore => ?lt⟩
  case near =>
    obtain rfl | rfl := p.eq_or_eq_other q
    · rw [Near, hout'', hout', hsent'.inSequenceNr_self, hin]
      omega
    · rw [Near, Party.other_other, hother, hin']
      omega
  case out =>
    obtain rfl | rfl := p.eq_or_eq_other q
    · rw [hout'', hout']
    · rw [hother, hout]
  case answered =>
    rw [hsubchannels, hacknowledged.subchannels]
    refine SubChannel.settle_ne_waitingForAck fun hstate => ?_
    have hchannel : (mid p).channel.outgoingSubchannels =
        ((net p).refill.mark reliable).channel.outgoingSubchannels := by
      rw [hsent.sender]
      rfl
    simp only [hchannel] at hstate ⊢
    rw [hin]
    exact Peer.sendSeqNr_le (h.reliable.honest.inv p) hsent.carries hstate
  case le =>
    rw [hremaining, ← hsent.remaining]
    exact hacknowledged.remaining_le hbooks
  case lt =>
    rw [hremaining]
    exact hsent.remaining_lt (h.reliable.honest.sound p) (hmid.reliable.honest.sound p) (h.first p)
      hanswered hmore hacknowledged

/-- Two parties in a run whose sequence numbers do not wrap in the rounds to come. -/
structure Draining (bare legible : Prop) (c : BitVec 32) (max : Party → Nat) (p : Party)
    (queued : List (List Message)) (net : Peers) : Prop where
  drains : net.Drains bare c max
  near : ∀ q, net.Near q
  numbers : ∀ q, (net q).channel.outSequenceNr + (net p).channel.remaining < 2 ^ 32
  queued : (net p).queued = queued
  handedOver : legible → net.HandedOver p
  answered : (net p).channel.Answered

/-- From an answered state on, every round makes the rest smaller. -/
theorem Draining.round {legible : Prop} {queued : List (List Message)}
    (h : net.Draining bare legible c max p queued)
    (hmore : (net p).channel.outgoingReliableData 0 ≠ []) :
    ∃ net', net.round p = some net' ∧ net'.Draining bare legible c max p queued ∧
      (net' p).channel.remaining < (net p).channel.remaining := by
  have hpos : 0 < (net p).channel.remaining := by
    obtain ⟨stream, queue, hqueue⟩ := List.exists_cons_of_ne_nil hmore
    rw [NetChannel.remaining_of_cons hqueue]
    omega
  have hnumbers := h.numbers
  obtain ⟨net', hround, hdrains, hrounds⟩ := h.drains.round h.near
    (fun q => by have := hnumbers q; omega) p
  have hlt := hrounds.remaining_lt h.answered hmore
  refine ⟨net', hround, ⟨hdrains, hrounds.near, fun q => ?_, hrounds.queued.trans h.queued,
    fun hl => hrounds.handedOver (h.handedOver hl), hrounds.answered⟩, hlt⟩
  have := hnumbers q
  rw [hrounds.outSequenceNr]
  omega

/-- Nothing is left in the queue when all was returned. -/
theorem Drains.returned (h : net.Drains bare c max) (hbare : bare) (p : Party)
    (hempty : (net p).channel.outgoingReliableData 0 = []) :
    (net p.other).returned.flatten = (net p).queued.flatten := by
  have hlength := (h.reliable.supplies p).queued.length_eq
  have hpopped := (h.reliable.supplies p).popped
  rw [hempty, List.map_nil, List.length_nil, List.length_drop] at hlength
  have hall : (h.reliable.fifo p).retired = (h.reliable.fifo p).sent.length := by
    show (net p).popped = (net p).queued.length
    omega
  rw [h.reliable.returned hbare, Fifo.output_of_retired hall]
  rfl

/-- Whatever the network lost, delayed, reordered or duplicated before, rounds
without loss empty the queue of a party: one round to have every packet
answered, and then at most one for each fragment that is not acknowledged and
each transfer that is not popped.  The other party has then returned all that
was queued, in parts that its results start with, if no packet of the run that
finished a transfer ended in bits that are not messages; and it has returned
nothing else if the packets of the run had no messages of their own. -/
theorem run_drains {configuration : Party → Configuration} {actions : List Action}
    (hmax : ∀ p, 256 ≤ (configuration p).server.maxReliablePacketSize ∧
      (configuration p).server.maxReliablePacketSize ≤ 2047)
    (hrecoverable : ∀ action ∈ actions, action.Recoverable)
    (hfits :
      ∀ action ∈ actions, action.Fits fun p => (configuration p).server.maxReliablePacketSize)
    (hrun : (new c configuration).run actions = some net) (hnear : ∀ q, net.Near q) (p : Party)
    (hnumbers : ∀ q, (net q).channel.outSequenceNr + (net p).channel.remaining + 1 < 2 ^ 32) :
    ∃ n ≤ (net p).channel.remaining + 1, ∃ later, Run.iterate (round p) n net = some later ∧
      (later p).channel.outgoingReliableData 0 = [] ∧ (later p).queued = (net p).queued ∧
        (Run.EachStep step (new c configuration) actions (Legible c p) →
          ∃ parts, List.Forall₂ (· <+: ·) parts (later p.other).returned ∧
            parts.flatten = (net p).queued.flatten) ∧
        ((∀ action ∈ actions, action.Bare) →
          (later p.other).returned.flatten = (net p).queued.flatten) := by
  generalize hbare : (∀ action ∈ actions, action.Bare) = bare
  generalize hlegible : Run.EachStep step (new c configuration) actions (Legible c p) = legible
  have hok : ∀ action ∈ actions, action.Recoverable ∧ (bare → action.Bare) ∧
      action.Fits fun p => (configuration p).server.maxReliablePacketSize := by
    subst hbare
    exact fun action haction =>
      ⟨hrecoverable action haction, fun hb => hb action haction, hfits action haction⟩
  have hdrains : net.Drains bare c fun p => (configuration p).server.maxReliablePacketSize := by
    refine Run.induction_of (fun now action next hnow hok hstep => ?_) (Drains.new hmax) hok hrun
    exact hnow.step hok.1 hok.2.1 hok.2.2 hstep
  have hhanded : legible → net.HandedOver p := by
    subst hlegible
    exact fun hl => run_handedOver hmax hrecoverable hl hrun
  obtain ⟨net₁, hround, hdrains₁, hrounds⟩ := hdrains.round hnear
    (fun q => by have := hnumbers q; omega) p
  have hdraining : net₁.Draining bare legible c
      (fun p => (configuration p).server.maxReliablePacketSize) p (net p).queued := by
    refine ⟨hdrains₁, hrounds.near, fun q => ?_, hrounds.queued,
      fun hl => hrounds.handedOver (hhanded hl), hrounds.answered⟩
    have := hnumbers q
    have := hrounds.remaining_le
    rw [hrounds.outSequenceNr]
    omega
  obtain ⟨n, hn, later, hrest, hlater, hempty⟩ :=
    Run.exists_iterate (fun net => (net p).channel.outgoingReliableData 0 = [])
      (fun net => (net p).channel.remaining) (fun _ h hmore => h.round hmore) hdraining
  have := hrounds.remaining_le
  refine ⟨n + 1, by omega, later, ?_, hempty, hlater.queued, fun hl => ?_, fun hb => ?_⟩
  · rw [Run.iterate, hround]
    exact hrest
  · rw [← hlater.queued]
    exact Peer.HandedOver.all (hlater.handedOver hl) (hlater.drains.reliable.supplies p) hempty
  · rw [hlater.drains.returned hb p hempty, hlater.queued]

end

/-- The first packet of a transfer was lost, with a message of its own. -/
theorem run_drains_print : ∃ net,
    (new 5#32 fun _ => Configuration.loadDefault).run
        [.queue .a [.print ⟨"x"⟩], .write .a [.print ⟨"y"⟩]] = some net ∧
      ∃ n ≤ (net .a).channel.remaining + 1, ∃ later, Run.iterate (round .a) n net = some later ∧
        (later .a).channel.outgoingReliableData 0 = [] ∧ (later .a).queued = (net .a).queued ∧
          ∃ parts, List.Forall₂ (· <+: ·) parts (later .b).returned ∧
            parts.flatten = (net .a).queued.flatten := by
  have hfacts : ((new 5#32 fun _ => Configuration.loadDefault).run
      [.queue .a [.print ⟨"x"⟩], .write .a [.print ⟨"y"⟩]]).map (fun net =>
        ((net .a).channel.outSequenceNr, (net .a).channel.inSequenceNr,
          (net .b).channel.outSequenceNr, (net .b).channel.inSequenceNr, (net .a).channel.remaining,
          (net .b).channel.configuration.server.maxPacketsDropped)) =
      some (2, 0, 1, 0, 2, 5000) := by decide +kernel
  have hencode : NetChannel.encodeMessages [.print ⟨"x"⟩] = .ok [7, 30, 0] := by decide +kernel
  have hdecodes : DecodesTo [.print ⟨"x"⟩] [7, 30, 0] := by
    show NetChannel.readMessages _ _ _ = _
    decide +kernel
  obtain ⟨net, hrun, hnet⟩ := Option.map_eq_some_iff.mp hfacts
  simp only [Prod.mk.injEq] at hnet
  obtain ⟨hout, hin, hout', hin', hremaining, hdropped⟩ := hnet
  have hlegible : Run.EachStep step (new 5#32 fun _ => Configuration.loadDefault)
      [.queue .a [.print ⟨"x"⟩], .write .a [.print ⟨"y"⟩]] (Legible 5#32 .a) := by
    intro pre action now hpre _
    have hmem := hpre.subset (List.mem_append_right pre (List.mem_singleton_self action))
    obtain rfl | rfl := List.mem_pair.mp hmem
    · trivial
    · trivial
  have hdrains := run_drains (fun _ => ⟨by decide, by decide⟩)
    (by simp [Action.Recoverable, hencode, hdecodes])
    (by
      simp [Action.Fits, hencode]
      decide)
    hrun (fun q => by cases q <;> simp [Near, Party.other, hout, hin, hout', hin', hdropped]) .a
    (fun q => by cases q <;> simp [hout, hout', hremaining])
  obtain ⟨n, hn, later, hiterate, hempty, hqueued, hparts, -⟩ := hdrains
  exact ⟨net, hrun, n, hn, later, hiterate, hempty, hqueued, hparts hlegible⟩

/-- The packet with the transfer ends in a `StringCmd`.  It is acknowledged and
returns an error, so the queue is empty after a round, and nothing was returned. -/
theorem run_drains_stringCmd : ∃ net,
    (new 5#32 fun _ => Configuration.loadDefault).run
        [.queue .a [.print ⟨"x"⟩], .write .a [.stringCmd ⟨"y"⟩], .deliver .a 0] = some net ∧
      (∀ action ∈ [Action.queue .a [.print ⟨"x"⟩], .write .a [.stringCmd ⟨"y"⟩], .deliver .a 0],
        action.Recoverable ∧
          action.Fits fun _ => Configuration.loadDefault.server.maxReliablePacketSize) ∧
      (∀ q, net.Near q) ∧
      (∀ q, (net q).channel.outSequenceNr + (net .a).channel.remaining + 1 < 2 ^ 32) ∧
      ∃ later, Run.iterate (round .a) 1 net = some later ∧
        (later .a).channel.outgoingReliableData 0 = [] ∧
          (later .a).queued.flatten = [.print ⟨"x"⟩] ∧ (later .b).returned.flatten = [] := by
  have hfacts : ((new 5#32 fun _ => Configuration.loadDefault).run
      [.queue .a [.print ⟨"x"⟩], .write .a [.stringCmd ⟨"y"⟩], .deliver .a 0]).map (fun net =>
        ((net .a).channel.outSequenceNr, (net .a).channel.inSequenceNr,
          (net .b).channel.outSequenceNr, (net .b).channel.inSequenceNr, (net .a).channel.remaining,
          (net .b).channel.configuration.server.maxPacketsDropped)) =
      some (2, 0, 1, 1, 2, 5000) := by decide +kernel
  have hround : (((new 5#32 fun _ => Configuration.loadDefault).run
      [.queue .a [.print ⟨"x"⟩], .write .a [.stringCmd ⟨"y"⟩], .deliver .a 0]).bind
        (Run.iterate (round .a) 1)).map (fun later =>
          (((later .a).channel.outgoingReliableData 0).length, (later .a).queued.flatten,
            (later .b).returned.flatten)) = some (0, [.print ⟨"x"⟩], []) := by decide +kernel
  have hencode : NetChannel.encodeMessages [.print ⟨"x"⟩] = .ok [7, 30, 0] := by decide +kernel
  have hdecodes : DecodesTo [.print ⟨"x"⟩] [7, 30, 0] := by
    show NetChannel.readMessages _ _ _ = _
    decide +kernel
  obtain ⟨net, hrun, hnet⟩ := Option.map_eq_some_iff.mp hfacts
  simp only [Prod.mk.injEq] at hnet
  obtain ⟨hout, hin, hout', hin', hremaining, hdropped⟩ := hnet
  rw [hrun, Option.bind_some] at hround
  obtain ⟨later, hlater, hvalues⟩ := Option.map_eq_some_iff.mp hround
  simp only [Prod.mk.injEq, List.length_eq_zero_iff] at hvalues
  refine ⟨net, hrun, ?_, fun q => ?_, fun q => ?_, later, hlater, hvalues⟩
  · simp [Action.Recoverable, Action.Fits, hencode, hdecodes]
    decide
  · cases q <;> simp [Near, Party.other, hout, hin, hout', hin', hdropped]
  · cases q <;> simp [hout, hout', hremaining]

end Peers

end QuickplayServer
