import QuickplayServer.Net.Replay
import QuickplayServer.Workers

/-!
# QuickplayServer.Authenticity

Whose messages a connection handles.

Anybody can send packets under the address of a client, and the network may
deliver a packet twice.  The headers of the packets that a connection handles
have increasing numbers, so none is handled twice; and from the first one on
that carries the challenge of the address, all of them carry it.
-/

namespace QuickplayServer

namespace NetChannel

variable [BitstreamIo] [Crc]

theorem Call.apply_grows {self self' : NetChannel} {call : Call}
    (happly : call.apply self = some self') : Grows self self' := by
  cases call with
  | queueReliableMessages messages =>
      obtain ⟨-, rfl⟩ := returned_eq_some.mp happly
      exact (queueReliableMessages_upToSending messages self).grows
  | writePacket messages =>
      obtain ⟨-, rfl⟩ := returned_eq_some.mp happly
      exact (writePacket_sends messages self).upToSending.grows
  | readPacket packet =>
      obtain ⟨hpanic, rfl⟩ := returned_eq_some.mp happly
      exact (readPacket_grows self packet).run (Grows.refl self) hpanic

theorem run_grows {self self' : NetChannel} {calls : List Call} (h : run self calls = some self') :
    Grows self self' :=
  Run.induction (I := fun later => Grows self later)
    (fun _ _ _ hgrows happly => hgrows.trans (Call.apply_grows happly)) (Grows.refl self) h

/-- A packet that is read has a new header, which the channel admits. -/
theorem readPacket_header {packet : List UInt8} {messages : List Message} {self later : NetChannel}
    (h : readPacket packet self = (.ok messages, later)) :
    ∃ header reader, Header.read { data := packet, pos := 0 } packet = .ok (header, reader) ∧
      header.Admitted self ∧ self.inSequenceNr < header.sequence ∧
      header.sequence ≤ later.inSequenceNr ∧
      (header.challenge.isSome → later.hasSeenChallenge = true) := by
  have hpanic : (readPacket packet self).1 ≠ .panic := by simp [h]
  have hbody := (readPacket_upToReceived hpanic).grows
  rw [h] at hbody
  rw [readPacket_eq_bind] at h
  obtain ⟨⟨flags, reader⟩, mid, hheader, -⟩ := Method.bind_eq_ok.mp h
  rw [hheader] at hbody
  obtain ⟨header, hread, -, hadmitted, haccept⟩ := readHeader_eq_ok hheader
  obtain ⟨header', hread', hsequence, hseen⟩ := readHeader_known hheader
  obtain ⟨rfl, -⟩ := Prod.mk.inj (Outcome.ok.inj (hread.symm.trans hread'))
  refine ⟨header, reader, hread, hadmitted, ?_, hsequence.trans hbody.inSequenceNr,
    fun hchallenge => hbody.hasSeenChallenge (hseen hchallenge)⟩
  rw [acceptSequence_cases (Header.read_bounds hread).1] at haccept
  split at haccept
  · cases haccept
  · rename_i hnew
    exact Nat.lt_of_not_le hnew

end NetChannel

namespace Connection

variable {Addr Session : Type} [QuickplaySession Session] [BitstreamIo] [Crc]

/-! ## The headers of a run -/

/-- The header of a packet that is read, and the rounds of its messages. -/
def Event.handled (event : Event) (self : Connection Addr Session) :
    Option (Header × List (Round Addr Session)) :=
  match event with
  | .packet foundServer data =>
      match NetChannel.readPacket data self.netchan, Header.read { data, pos := 0 } data with
      | (.ok messages, netchan), .ok (header, _) =>
          some (header, roundsOfMessages foundServer messages.zipIdx { self with netchan })
      | _, _ => none
  | .write => none

def handled : List Event → Connection Addr Session → List (Header × List (Round Addr Session))
  | [], _ => []
  | event :: events, self => (event.handled self).toList ++ handled events (event.method self).2

theorem Event.handled_rounds (event : Event) (self : Connection Addr Session) :
    (event.handled self).toList.flatMap (·.2) = event.rounds self := by
  cases event with
  | write => rfl
  | packet foundServer data =>
      rw [Event.handled, Event.rounds, roundsOfPacket, onNetchan]
      cases hread : NetChannel.readPacket data self.netchan with
      | mk outcome netchan =>
          cases outcome with
          | err e => rfl
          | panic => rfl
          | ok messages =>
              obtain ⟨header, reader, hheader, -⟩ := NetChannel.readPacket_header hread
              rw [hheader]
              simp

/-- Every round of a run is in a packet that was handled. -/
theorem handled_rounds {events : List Event} {self : Connection Addr Session}
    (h : Survives events self) : (handled events self).flatMap (·.2) = rounds events self := by
  induction events generalizing self with
  | nil => rfl
  | cons event events ih =>
      rw [handled, List.flatMap_append, event.handled_rounds, ih h.2, rounds_cons h.1]

/-- The headers that a channel may come to accept, in this order. -/
structure Ordered (channel : NetChannel) (headers : List Header) : Prop where
  new : ∀ header ∈ headers, channel.inSequenceNr < header.sequence
  increasing : headers.Pairwise (·.sequence < ·.sequence)
  challenged : ∃ before later, headers = before ++ later ∧
    (∀ header ∈ before, header.challenge = none ∧ channel.hasSeenChallenge = false) ∧
    ∀ header ∈ later, header.challenge = some channel.challenge.toNat

omit [BitstreamIo] [Crc] in
/-- What is in order for a channel is in order for each one it has grown from. -/
theorem Ordered.grows {channel channel' : NetChannel} {headers : List Header}
    (h : Ordered channel' headers) (hgrows : NetChannel.Grows channel channel') :
    Ordered channel headers where
  new header hheader := hgrows.inSequenceNr.trans_lt (h.new header hheader)
  increasing := h.increasing
  challenged := by
    obtain ⟨before, later, rfl, hbefore, hlater⟩ := h.challenged
    refine ⟨before, later, rfl, fun header hheader => ?_, hgrows.challenge ▸ hlater⟩
    obtain ⟨hnone, hunseen⟩ := hbefore header hheader
    refine ⟨hnone, ?_⟩
    cases hseen : channel.hasSeenChallenge with
    | false => rfl
    | true => exact absurd (hgrows.hasSeenChallenge hseen) (by simp [hunseen])

omit [BitstreamIo] [Crc] in
/-- A packet that is let in goes in front of a run that was in order behind it. -/
theorem Ordered.cons {channel channel' : NetChannel} {header : Header} {headers : List Header}
    (h : Ordered channel' headers) (hgrows : NetChannel.Grows channel channel')
    (hadmitted : header.Admitted channel) (hnew : channel.inSequenceNr < header.sequence)
    (hlast : header.sequence ≤ channel'.inSequenceNr)
    (hseen : header.challenge.isSome → channel'.hasSeenChallenge = true) :
    Ordered channel (header :: headers) where
  new := List.forall_mem_cons.mpr ⟨hnew, (h.grows hgrows).new⟩
  increasing := List.pairwise_cons.mpr
    ⟨fun later hlater => hlast.trans_lt (h.new later hlater), h.increasing⟩
  challenged := by
    obtain ⟨before, later, rfl, hbefore, hlater⟩ := h.challenged
    cases hchallenge : header.challenge with
    | none =>
        rw [Header.Admitted, hchallenge] at hadmitted
        refine ⟨header :: before, later, rfl,
          List.forall_mem_cons.mpr ⟨⟨hchallenge, hadmitted⟩, ?_⟩,
          hgrows.challenge ▸ hlater⟩
        exact fun other hother => ⟨(hbefore other hother).1, hadmitted⟩
    | some challenge =>
        rw [Header.Admitted, hchallenge] at hadmitted
        rw [hchallenge] at hseen
        -- nothing goes without the challenge any more
        have hnil : before = [] := by
          refine List.eq_nil_iff_forall_not_mem.mpr fun other hother => ?_
          exact absurd (hbefore other hother).2 (by rw [hseen rfl]; decide)
        subst hnil
        refine ⟨[], header :: later, rfl, by simp, List.forall_mem_cons.mpr ⟨?_, ?_⟩⟩
        · rw [hchallenge, hadmitted]
        · exact hgrows.challenge ▸ hlater

/-- A header that is handled was new and admitted, and is known from then on. -/
theorem Event.handled_header {event : Event} {self : Connection Addr Session} {header : Header}
    {rounds : List (Round Addr Session)} (hhandled : event.handled self = some (header, rounds)) :
    header.Admitted self.netchan ∧ self.netchan.inSequenceNr < header.sequence ∧
      header.sequence ≤ (event.method self).2.netchan.inSequenceNr ∧
      (header.challenge.isSome → (event.method self).2.netchan.hasSeenChallenge = true) := by
  cases event with
  | write => cases hhandled
  | packet foundServer data =>
      rw [Event.handled] at hhandled
      rw [Event.method, handlePacket, Method.bind_apply, onNetchan]
      cases hread : NetChannel.readPacket data self.netchan with
      | mk outcome netchan =>
          rw [hread] at hhandled
          cases outcome with
          | err e => cases hhandled
          | panic => cases hhandled
          | ok messages =>
              obtain ⟨header', reader, hheader, hadmitted, hnew, hlast, hseen⟩ :=
                NetChannel.readPacket_header hread
              rw [hheader] at hhandled
              obtain ⟨rfl, -⟩ := Prod.mk.inj (Option.some.inj hhandled)
              -- the replies do not change what has been received
              have hgrows := NetChannel.run_grows
                (run_messagesCalls foundServer messages.zipIdx { self with netchan })
              exact ⟨hadmitted, hnew, hlast.trans hgrows.inSequenceNr,
                fun hchallenge => hgrows.hasSeenChallenge (hseen hchallenge)⟩

/-- The headers of a run are accepted one after the other. -/
theorem handled_ordered {events : List Event} {self : Connection Addr Session}
    (h : Survives events self) : Ordered self.netchan ((handled events self).map (·.1)) := by
  induction events generalizing self with
  | nil => exact ⟨by simp [handled], .nil, [], [], rfl, by simp, by simp⟩
  | cons event events ih =>
      have hlater := ih h.2
      have hgrows := NetChannel.run_grows (run_eventCalls h.1)
      rw [handled, List.map_append]
      cases hhandled : event.handled self with
      | none => exact hlater.grows hgrows
      | some x =>
          obtain ⟨header, rounds⟩ := x
          obtain ⟨hadmitted, hnew, hlast, hseen⟩ := Event.handled_header hhandled
          exact hlater.cons hgrows hadmitted hnew hlast hseen

end Connection

namespace Service

open Connectionless (getChallengeForAddress)
open Connection (handled rounds)

section

variable {Addr F SnapError : Type} [DecidableEq Addr] [ToString Addr] [AddressHasher Addr]
variable [SocketAddr Addr] [F32 F] [SerdeJson F] [Snap SnapError] [BitstreamIo] [Crc]

/-- A worker's connection has met its messages in packets with increasing
numbers, none of them twice.  From the first one on that carries the challenge
of its client's address all of them do, and the ones before carry none. -/
theorem run_authentic {configuration : Configuration} {inputs : List (Input Addr)}
    {self : Service Addr F} (hrun : Run.run step (new configuration) inputs = some self)
    {index : Nat} {task : Spawned Addr Quickplay.QuickplaySession}
    (hindex : self.server.spawned[index]? = some task) (hworking : task.working = true) :
    ∃ events, Lives configuration self.serverLists inputs index task.connection events ∧
      let packets := handled events (start configuration task.connection.clientAddr)
      packets.flatMap (·.2) = rounds events (start configuration task.connection.clientAddr) ∧
      (packets.map (·.1)).Pairwise (·.sequence < ·.sequence) ∧
      ∃ before later, packets.map (·.1) = before ++ later ∧
        (∀ header ∈ before, header.challenge = none) ∧
        ∀ header ∈ later, header.challenge =
          some (getChallengeForAddress task.connection.clientAddr).toNat := by
  obtain ⟨events, hlives⟩ := run_alive hrun index task hindex hworking
  have hordered := Connection.handled_ordered hlives.survives
  obtain ⟨before, later, heq, hbefore, hlater⟩ := hordered.challenged
  exact ⟨events, hlives, Connection.handled_rounds hlives.survives, hordered.increasing, before,
    later, heq, fun header hheader => (hbefore header hheader).1, hlater⟩

end

theorem run_authentic_askingClient : ∃ (self : Service (Fin 16) ℚ) (task : _) (events : _),
    Run.run step (new .loadDefault) askingClient = some self ∧
      self.server.spawned[0]? = some task ∧
      ((handled events (start .loadDefault task.connection.clientAddr)).map (·.1)).Pairwise
        (·.sequence < ·.sequence) := by
  obtain ⟨self, task, hrun, hindex, hworking, -⟩ := exists_askingClient
  obtain ⟨events, -, -, hincreasing, -⟩ := run_authentic hrun hindex hworking
  exact ⟨self, task, events, hrun, hindex, hincreasing⟩

end Service

end QuickplayServer
