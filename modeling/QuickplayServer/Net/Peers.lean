import QuickplayServer.Net.Writable

/-!
# QuickplayServer.Net.Peers

Two channels and the network between them.

Each party queues messages, writes packets and reads packets that the other
has written.  The network may lose, delay, reorder and duplicate packets, so
any packet that was ever written may be delivered at any time, or never.  Next
to its channel a party keeps a record of what has happened, which no channel
looks at: the lists it queued and was returned, the transfers it popped, how
often each subchannel was filled and which fillings it accepted.
-/

namespace QuickplayServer

inductive Party where
  | a
  | b
  deriving DecidableEq, Repr

namespace Party

def other : Party → Party
  | a => b
  | b => a

@[simp] theorem other_other (p : Party) : p.other.other = p := by cases p <;> rfl
@[simp] theorem other_ne (p : Party) : p.other ≠ p := by cases p <;> simp [other]
@[simp] theorem ne_other (p : Party) : p ≠ p.other := by cases p <;> simp [other]

theorem eq_or_eq_other (p q : Party) : q = p ∨ q = p.other := by
  cases p <;> cases q <;> simp [other]

end Party

/-- A packet on its way, and the record of what it was written from: the header
fields of the channel, and the subchannel in it with the number of its filling. -/
structure Datagram where
  bytes : List UInt8
  sequence : Nat
  sequenceAck : Nat
  reliableState : BitVec 8
  carried : Option (Fin MAX_SUBCHANNELS × Nat)

structure Peer where
  channel : NetChannel
  /-- Every packet that was written. -/
  written : List Datagram
  /-- How often each subchannel was filled. -/
  fillings : Fin MAX_SUBCHANNELS → Nat
  /-- The fillings of the other party that were acknowledged by a toggled bit. -/
  accepted : List (Fin MAX_SUBCHANNELS × Nat)
  /-- The lists that were queued. -/
  queued : List (List Message)
  /-- The number of transfers that were popped. -/
  popped : Nat
  /-- The lists that were returned. -/
  returned : List (List Message)

/-- Two parties and the packets between them. -/
abbrev Peers := Party → Peer

inductive Action where
  /-- `queue_reliable_messages` -/
  | queue (p : Party) (messages : List Message)
  /-- `write_packet` -/
  | write (p : Party) (messages : List Message)
  /-- `read_packet` of the other party, for the packet that `p` wrote as its
  `index`th. -/
  | deliver (p : Party) (index : Nat)

namespace Peer

def new (challenge : BitVec 32) (configuration : Configuration) : Peer where
  channel := NetChannel.new challenge configuration
  written := []
  fillings := fun _ => 0
  accepted := []
  queued := []
  popped := 0
  returned := []

/-- The fillings once the channel is `channel`. -/
def refilled (self : Peer) (channel : NetChannel) (k : Fin MAX_SUBCHANNELS) : Nat :=
  if (self.channel.outgoingSubchannels k).state = .free ∧
    (channel.outgoingSubchannels k).state ≠ .free
  then self.fillings k + 1 else self.fillings k

variable [BitstreamIo]

def queue (messages : List Message) (self : Peer) : Option Peer :=
  match NetChannel.queueReliableMessages messages self.channel with
  | (.ok (), channel) => some { self with channel, queued := self.queued ++ [messages] }
  | (.err _, channel) => some { self with channel }
  | (.panic, _) => none

variable [Crc]

/-- A packet that could not be written may have filled and marked a subchannel. -/
def write (messages : List Message) (self : Peer) : Option Peer :=
  match NetChannel.writePacket messages self.channel with
  | (.ok bytes, channel) =>
      let fillings := self.refilled channel
      let carried :=
        (NetChannel.fillOutgoingSubchannel self.channel).2.findSubchannel .waitingToSend
      let datagram : Datagram :=
        { bytes
          sequence := self.channel.outSequenceNr
          sequenceAck := self.channel.inSequenceNr
          reliableState := self.channel.inReliableState
          carried := carried.map fun k => (k, fillings k) }
      some { self with channel, fillings, written := self.written ++ [datagram] }
  | (.err _, channel) => some { self with channel, fillings := self.refilled channel }
  | (.panic, _) => none

/-- A filling is accepted when the bit of its subchannel is toggled. -/
def read (datagram : Datagram) (self : Peer) : Option Peer :=
  match NetChannel.readPacket datagram.bytes self.channel with
  | (.panic, _) => none
  | (outcome, channel) =>
      some { self with
        channel
        accepted := self.accepted ++ datagram.carried.toList.filter fun x =>
          channel.inReliableState.getLsbD x.1 != self.channel.inReliableState.getLsbD x.1
        popped := self.popped + ((self.channel.outgoingReliableData 0).length -
          (channel.outgoingReliableData 0).length)
        returned :=
          match outcome with
          | .ok messages => self.returned ++ [messages]
          | _ => self.returned }

end Peer

namespace Peers

/-- Two channels with the same challenge. -/
def new (challenge : BitVec 32) (configuration : Party → Configuration) : Peers := fun p =>
  Peer.new challenge (configuration p)

variable [BitstreamIo] [Crc]

def step (self : Peers) : Action → Option Peers
  | .queue p messages => ((self p).queue messages).map (Function.update self p)
  | .write p messages => ((self p).write messages).map (Function.update self p)
  | .deliver p index =>
      match (self p).written[index]? with
      | some datagram => ((self p.other).read datagram).map (Function.update self p.other)
      | none => none

/-- The parties after the actions, if none of them panicked. -/
def run (self : Peers) (actions : List Action) : Option Peers := Run.run step self actions

end Peers

namespace Action

variable [BitstreamIo]

/-- What the action queues is `ok`. -/
def Queues (ok : List UInt8 → Prop) : Action → Prop
  | .queue _ messages => ∀ data, NetChannel.encodeMessages messages = .ok data → ok data
  | _ => True

/-- A queued transfer has fewer than 2^26 bytes. -/
abbrev Small : Action → Prop := Queues (·.length < 2 ^ 26)

end Action

end QuickplayServer
