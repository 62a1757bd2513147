import QuickplayServer.Lifetime
import QuickplayServer.Net.WellFormed
import QuickplayServer.Net.Writable

/-!
# QuickplayServer.Replies

What a connection queues, and that it can always be sent.

A run of a connection is a run of calls on its channel: a call for every packet
that is handled, one for every reply, and one for every packet that is written.
The replies are short, because the texts in them come from messages that the
channel has cut to size.  So no transfer is ever as long as a packet may be.
-/

namespace QuickplayServer

namespace Connection

section

variable {Addr Session : Type} [QuickplaySession Session] [BitstreamIo]

/-! ## Replies -/

/-- The message that the round queues, if it queues one. -/
def Round.reply (round : Round Addr Session) : Option Message :=
  match round.message with
  | .signonState _ =>
      match round.foundServer with
      | some destinationServer => some (.stringCmd { command := "redirect " ++ destinationServer })
      | none => some (.disconnect { reason := "No matches found with selected filter" })
  | .setConVars message =>
      match (QuickplaySession.updatePreferencesFromConvars message.convars
        round.connection.quickplay).1 with
      | .ok () => none
      | .error reason => some (.disconnect { reason })
  | _ => none

/-- What the round calls on the channel. -/
def Round.calls (round : Round Addr Session) : List NetChannel.Call :=
  (round.reply.map fun reply => .queueReliableMessages [reply]).toList

/-- Queueing a message is a run of the channel, whether it works out or not. -/
theorem run_queue (reply : Message) [Crc] (channel : NetChannel) :
    NetChannel.run channel [.queueReliableMessages [reply]] =
      some (NetChannel.queueReliableMessages [reply] channel).2 := by
  refine Run.run_cons_eq_some.mpr ⟨_, NetChannel.returned_eq_some.mpr ⟨?_, rfl⟩, rfl⟩
  obtain ⟨stream, -, -, -, h⟩ | ⟨e, h⟩ := NetChannel.queueReliableMessages_cases [reply] channel
  · simp [h]
  · simp [h]

variable [Crc]

/-- What a round does to the channel is a run of the calls for its reply. -/
theorem run_roundCalls (round : Round Addr Session) :
    NetChannel.run round.connection.netchan round.calls =
      some (handleMessage round.foundServer round.message round.connection).2.netchan := by
  obtain ⟨self, foundServer, message⟩ := round
  cases message with
  | disconnect message => rfl
  | stringCmd message => rfl
  | print message => rfl
  | signonState message => cases foundServer <;> exact run_queue _ _
  | setConVars message =>
      cases hresult :
          (QuickplaySession.updatePreferencesFromConvars message.convars self.quickplay).1 with
      | ok value =>
          simp only [Round.calls, Round.reply, handleMessage, Method.get_bind, Method.modify_bind,
            hresult]
          rfl
      | error reason =>
          simp only [Round.calls, Round.reply, handleMessage, Method.get_bind, Method.modify_bind,
            hresult]
          exact run_queue _ _

/-! ## Calls -/

omit [QuickplaySession Session] in
/-- No call changes the challenge of a channel. -/
theorem run_challenge {self self' : NetChannel} {calls : List NetChannel.Call}
    (h : NetChannel.run self calls = some self') : self'.challenge = self.challenge := by
  refine Run.induction (I := fun channel => channel.challenge = self.challenge) ?_ rfl h
  intro channel call channel' hchannel happly
  by_cases hqueue : ∃ messages, call = .queueReliableMessages messages
  · obtain ⟨messages, rfl⟩ := hqueue
    obtain ⟨-, rfl⟩ := NetChannel.returned_eq_some.mp happly
    obtain ⟨stream, -, -, -, hok⟩ | ⟨e, herr⟩ :=
      NetChannel.queueReliableMessages_cases messages channel
    · rw [hok]
      exact hchannel
    · rw [herr]
      exact hchannel
  · have hlater := NetChannel.Call.apply_later (fun messages heq => hqueue ⟨messages, heq⟩) happly
    exact hlater.challenge.trans hchannel

/-- Two runs one after the other are one run. -/
theorem run_append {self mid : NetChannel} {calls calls' : List NetChannel.Call}
    (h : NetChannel.run self calls = some mid) :
    NetChannel.run self (calls ++ calls') = NetChannel.run mid calls' := by
  have happend : NetChannel.run self (calls ++ calls') =
      (NetChannel.run self calls).bind (NetChannel.run · calls') := List.foldlM_append
  rw [happend, h, Option.bind_some]

/-- By induction on the messages of a packet. -/
theorem run_messagesCalls (foundServer : Nat → Option String) (messages : List (Message × Nat))
    (self : Connection Addr Session) :
    NetChannel.run self.netchan
        ((roundsOfMessages foundServer messages self).flatMap Round.calls) =
      some ((messages.forM fun (message, index) => handleMessage (foundServer index) message :
        Method (Connection Addr Session) Error Unit) self).2.netchan := by
  induction messages generalizing self with
  | nil => rfl
  | cons head messages ih =>
      obtain ⟨message, index⟩ := head
      have hround := run_roundCalls ⟨self, foundServer index, message⟩
      rw [roundsOfMessages, List.flatMap_cons, run_append hround, List.forM_eq_forM,
        List.forM_cons, Method.bind_apply]
      dsimp only
      cases hhandle : handleMessage (foundServer index) message self with
      | mk outcome self' =>
          cases outcome with
          | ok value => exact ih self'
          | err e => rfl
          | panic => rfl

def Event.calls (event : Event) (self : Connection Addr Session) : List NetChannel.Call :=
  match event with
  | .packet foundServer data =>
      .readPacket data :: (roundsOfPacket foundServer data self).flatMap Round.calls
  | .write => [.writePacket []]

/-- What an event does to the channel is a run of its calls. -/
theorem run_eventCalls {event : Event} {self : Connection Addr Session}
    (h : (event.method self).1 ≠ .panic) :
    NetChannel.run self.netchan (event.calls self) = some (event.method self).2.netchan := by
  cases event with
  | write =>
      refine Run.run_cons_eq_some.mpr ⟨_, ?_, rfl⟩
      rw [Event.method, Method.bind_apply, onNetchan] at h ⊢
      rw [NetChannel.Call.apply]
      cases hwrite : NetChannel.writePacket [] self.netchan with
      | mk outcome netchan =>
          rw [hwrite] at h
          cases outcome with
          | ok bytes => rfl
          | err e => rfl
          | panic => exact absurd rfl h
  | packet foundServer data =>
      have hcall : ∀ netchan : NetChannel,
          NetChannel.Call.apply self.netchan (.readPacket data) = some netchan →
          NetChannel.run self.netchan ((Event.packet foundServer data).calls self) =
            NetChannel.run netchan
              ((roundsOfPacket foundServer data self).flatMap Round.calls) := by
        intro netchan hnetchan
        have hread : NetChannel.run self.netchan [.readPacket data] = some netchan :=
          Run.run_cons_eq_some.mpr ⟨netchan, hnetchan, rfl⟩
        exact run_append hread
      rw [Event.method, handlePacket, Method.bind_apply, onNetchan] at h ⊢
      unfold roundsOfPacket at hcall
      rw [onNetchan] at hcall
      rw [NetChannel.Call.apply] at hcall
      cases hread : NetChannel.readPacket data self.netchan with
      | mk outcome netchan =>
          rw [hread] at h hcall
          cases outcome with
          | ok messages =>
              rw [hcall netchan rfl]
              exact run_messagesCalls foundServer messages.zipIdx { self with netchan }
          | err e =>
              rw [hcall netchan rfl]
              rfl
          | panic => exact absurd rfl h

/-- What a run calls on the channel. -/
def calls : List Event → Connection Addr Session → List NetChannel.Call
  | [], _ => []
  | event :: events, self => event.calls self ++ calls events (event.method self).2

/-- A run of a connection is a run of its channel. -/
theorem run_calls {events : List Event} {self : Connection Addr Session}
    (h : Survives events self) :
    NetChannel.run self.netchan (calls events self) = some (after events self).netchan := by
  induction events generalizing self with
  | nil => rfl
  | cons event events ih =>
      rw [calls, run_append (run_eventCalls h.1), after_cons h.1]
      exact ih h.2

/-- What a run queues are its replies. -/
theorem calls_queues {ok : List UInt8 → Prop} {events : List Event} {self : Connection Addr Session}
    (h : Survives events self)
    (hok : ∀ round ∈ rounds events self, ∀ reply ∈ round.reply, ∀ data,
      NetChannel.encodeMessages [reply] = .ok data → ok data) :
    ∀ call ∈ calls events self, call.Queues ok := by
  have hround : ∀ round : Round Addr Session, (∀ reply ∈ round.reply, ∀ data,
      NetChannel.encodeMessages [reply] = .ok data → ok data) →
      ∀ call ∈ round.calls, call.Queues ok := by
    intro round hreply call hcall
    rw [Round.calls, Option.mem_toList, Option.map_eq_some_iff] at hcall
    obtain ⟨reply, hmem, rfl⟩ := hcall
    exact hreply reply hmem
  induction events generalizing self with
  | nil => simp [calls]
  | cons event events ih =>
      rw [rounds_cons h.1] at hok
      rw [List.forall_mem_append] at hok
      rw [calls]
      refine List.forall_mem_append.mpr ⟨?_, ih h.2 hok.2⟩
      cases event with
      | write => simp [Event.calls, NetChannel.Call.Queues]
      | packet foundServer data =>
          refine List.forall_mem_cons.mpr ⟨trivial, fun call hcall => ?_⟩
          obtain ⟨round, hmem, hcall⟩ := List.mem_flatMap.mp hcall
          exact hround round (hok.1 round hmem) call hcall

/-! ## The messages of a run -/

omit [Crc] in
/-- The rounds of a packet are for its messages. -/
theorem mem_of_roundsOfMessages {foundServer : Nat → Option String}
    {messages : List (Message × Nat)} {self : Connection Addr Session}
    {round : Round Addr Session} (h : round ∈ roundsOfMessages foundServer messages self) :
    ∃ index, (round.message, index) ∈ messages := by
  induction messages generalizing self with
  | nil => cases h
  | cons head messages ih =>
      obtain ⟨message, index⟩ := head
      rw [roundsOfMessages] at h
      obtain rfl | hlater := List.mem_cons.mp h
      · exact ⟨index, List.mem_cons_self⟩
      · cases hhandle : handleMessage (foundServer index) message self with
        | mk outcome self' =>
            rw [hhandle] at hlater
            cases outcome with
            | ok value =>
                obtain ⟨i, hi⟩ := ih hlater
                exact ⟨i, List.mem_cons_of_mem _ hi⟩
            | err e => cases hlater
            | panic => cases hlater

/-- The messages that a connection meets were read by its channel, so they are cut
to size. -/
theorem Event.wellFormed (event : Event) (self : Connection Addr Session) :
    ∀ round ∈ event.rounds self, round.message.WellFormed := by
  intro round hround
  cases event with
  | write => cases hround
  | packet foundServer data =>
      rw [Event.rounds, roundsOfPacket, onNetchan] at hround
      cases hread : NetChannel.readPacket data self.netchan with
      | mk outcome netchan =>
          rw [hread] at hround
          cases outcome with
          | ok messages =>
              obtain ⟨index, hmem⟩ := mem_of_roundsOfMessages hround
              exact NetChannel.readPacket_wellFormed hread _ (List.fst_mem_of_mem_zipIdx hmem)
          | err e => cases hround
          | panic => cases hround

/-- A connection only ever meets well-formed messages. -/
theorem rounds_wellFormed (events : List Event) (self : Connection Addr Session) :
    ∀ round ∈ rounds events self, round.message.WellFormed := by
  induction events generalizing self with
  | nil => simp [rounds]
  | cons event events ih =>
      have hevent := event.wellFormed self
      rw [rounds]
      refine List.forall_mem_append.mpr ⟨hevent, ?_⟩
      cases event.method self with
      | mk outcome self' =>
          cases outcome with
          | ok value => exact ih self'
          | err e => exact ih self'
          | panic => simp

end

end Connection

/-! ## Short texts -/

/-- The bytes of two texts are those of the one and then those of the other. -/
theorem asBytes_append (s t : String) : asBytes (s ++ t) = asBytes s ++ asBytes t := by
  simp [asBytes]

namespace Quickplay

/-- A text that a prefix was taken off begins with it. -/
theorem stripPrefix_eq_some {s pre rest : String} (h : stripPrefix s pre = some rest) :
    s = pre ++ rest := by
  unfold stripPrefix at h
  obtain ⟨chars, hchars, rfl⟩ := Option.map_eq_some_iff.mp h
  obtain ⟨front, hfront, heq⟩ := List.dropPrefix?_eq_some_iff.mp hchars
  rw [beq_iff_eq] at heq
  rw [← String.toList_inj, String.toList_append, String.toList_ofList, hfront, heq]

namespace QuickplaySession

/-- An error message has the name and the value in it, and 44 bytes at most besides. -/
theorem length_errorMessage_le (name value : String) (errType : PreferenceDecodeError) :
    (asBytes (errorMessage name value errType)).length ≤
      (asBytes name).length + (asBytes value).length + 44 := by
  have hdecode : (asBytes "Could not decode value for preference \"").length = 39 := by
    decide +kernel
  have hinvalid : (asBytes "Invalid value for preference \"").length = 30 := by decide +kernel
  have hunknown : (asBytes "Unknown preference \"").length = 20 := by decide +kernel
  have hmiddle : (asBytes "\": \"").length = 4 := by decide +kernel
  have hquote : (asBytes "\"").length = 1 := by decide +kernel
  cases errType with
  | UnparseableValue =>
      have heq : errorMessage name value .UnparseableValue =
          "Could not decode value for preference \"" ++ name ++ "\": \"" ++ value ++ "\"" := rfl
      rw [heq]
      simp only [asBytes_append, List.length_append]
      omega
  | InvalidValue =>
      have heq : errorMessage name value .InvalidValue =
          "Invalid value for preference \"" ++ name ++ "\": \"" ++ value ++ "\"" := rfl
      rw [heq]
      simp only [asBytes_append, List.length_append]
      omega
  | UnknownPreference =>
      have heq : errorMessage name value .UnknownPreference =
          "Unknown preference \"" ++ name ++ "\"" := rfl
      rw [heq]
      simp only [asBytes_append, List.length_append]
      omega

/-- A convar that is refused has the name of a preference, and the message says why. -/
theorem meaning_eq_error {self : QuickplaySession} {convar : String × String} {message : String}
    (h : self.meaning convar = some (.error message)) :
    ∃ name errType, self.preferenceName convar = some name ∧
      message = errorMessage name convar.2 errType := by
  unfold meaning at h
  split at h
  · cases h
  · split at h
    · cases h
    · rename_i name hname
      split at h
      · obtain rfl := Except.error.inj (Option.some.inj h)
        exact ⟨name, .UnknownPreference, hname, rfl⟩
      · split at h
        · obtain rfl := Except.error.inj (Option.some.inj h)
          exact ⟨name, _, hname, rfl⟩
        · cases h

/-- An error is about one of the convars. -/
theorem updatePreferencesFromConvars_error {convars : List (String × String)}
    {self : QuickplaySession} {reason : String}
    (h : (updatePreferencesFromConvars convars self).1 = .error reason) :
    ∃ convar ∈ convars, ∃ name errType, self.preferenceName convar = some name ∧
      reason = errorMessage name convar.2 errType := by
  induction convars generalizing self with
  | nil => cases h
  | cons convar convars ih =>
      rw [updatePreferencesFromConvars_cons] at h
      cases hmeaning : self.meaning convar with
      | none =>
          rw [hmeaning] at h
          obtain ⟨c, hc, hreason⟩ := ih h
          exact ⟨c, List.mem_cons_of_mem _ hc, hreason⟩
      | some result =>
          rw [hmeaning] at h
          cases result with
          | error message =>
              obtain rfl := Except.error.inj h
              obtain ⟨name, errType, hname, rfl⟩ := meaning_eq_error hmeaning
              exact ⟨convar, List.mem_cons_self, name, errType, hname, rfl⟩
          | ok write =>
              obtain ⟨c, hc, hreason⟩ := ih h
              exact ⟨c, List.mem_cons_of_mem _ hc, hreason⟩

/-- The convars of a message make for a short error. -/
theorem length_reason_le {convars : List (String × String)} {self : QuickplaySession}
    {reason : String} (h : (updatePreferencesFromConvars convars self).1 = .error reason)
    (hconvars : ∀ convar ∈ convars, Within 260 convar.1 ∧ Within 260 convar.2) :
    (asBytes reason).length ≤ 564 := by
  obtain ⟨convar, hmem, name, errType, hname, rfl⟩ := updatePreferencesFromConvars_error h
  obtain ⟨hfirst, hsecond⟩ := hconvars convar hmem
  have hlength := length_errorMessage_le name convar.2 errType
  have hle := hfirst.le
  rw [stripPrefix_eq_some hname, asBytes_append, List.length_append] at hle
  have hle' := hsecond.le
  omega

end QuickplaySession

end Quickplay

namespace Connection

variable {Addr F : Type} [ToString Addr] [F32 F] [BitstreamIo]

/-- Every reply is a short text. -/
theorem Round.length_reply {round : Round Addr Quickplay.QuickplaySession}
    {serverList : List (ServerInfo Addr F)} (hmessage : round.message.WellFormed)
    (hasks : round.AsksOn serverList) (haddr : ∀ addr : Addr, (asBytes (toString addr)).length ≤ 64)
    {reply : Message} (hreply : reply ∈ round.reply) {data : List UInt8}
    (hencode : NetChannel.encodeMessages [reply] = .ok data) : data.length ≤ 566 := by
  have htext : ∃ messageType text, reply.content = some (messageType, text) ∧
      (asBytes text).length ≤ 564 := by
    obtain ⟨self, foundServer, message⟩ := round
    cases message with
    | disconnect message => cases hreply
    | stringCmd message => cases hreply
    | print message => cases hreply
    | signonState message =>
        cases foundServer with
        | none =>
            obtain rfl := Option.some.inj hreply
            exact ⟨_, _, rfl, by decide +kernel⟩
        | some destinationServer =>
            obtain rfl := Option.some.inj hreply
            refine ⟨_, _, rfl, ?_⟩
            obtain ⟨addr, -, haddress⟩ := Option.map_eq_some_iff.mp hasks.symm
            have hle := haddr addr
            have hredirect : (asBytes "redirect ").length = 9 := by decide +kernel
            rw [haddress] at hle
            rw [asBytes_append, List.length_append, hredirect]
            omega
    | setConVars message =>
        cases hresult : (QuickplaySession.updatePreferencesFromConvars message.convars
            self.quickplay).1 with
        | ok value =>
            rw [Round.reply] at hreply
            dsimp only at hreply
            rw [hresult] at hreply
            cases hreply
        | error reason =>
            rw [Round.reply] at hreply
            dsimp only at hreply
            rw [hresult] at hreply
            obtain rfl := Option.some.inj hreply
            exact ⟨_, _, rfl, Quickplay.QuickplaySession.length_reason_le hresult hmessage.2⟩
  obtain ⟨messageType, text, hcontent, hle⟩ := htext
  obtain ⟨data', hdata', hlength⟩ := encodeMessages_text hcontent
  obtain rfl := Outcome.ok.inj (hencode.symm.trans hdata')
  omega

/-! ## Sending -/

/-- The packets of this configuration hold a reply. -/
def Roomy (configuration : Configuration) : Prop :=
  566 < configuration.server.maxReliablePacketSize

instance (configuration : Configuration) : Decidable (Roomy configuration) :=
  inferInstanceAs (Decidable (566 < configuration.server.maxReliablePacketSize))

variable [Crc] {configuration : Configuration} {challenge : BitVec 32} {a : Addr}
  {events : List Event}

/-- A connection that has only ever asked for servers can send what it queues. -/
theorem writePacket_after (hroomy : Roomy configuration)
    (haddr : ∀ addr : Addr, (asBytes (toString addr)).length ≤ 64)
    (h : Survives events (created configuration a challenge))
    (hasked : ∀ round ∈ rounds events (created configuration a challenge),
      ∃ serverList : List (ServerInfo Addr F), round.AsksOn serverList)
    {self : NetChannel} (hself : (after events (created configuration a challenge)).netchan = self)
    (hnext : self.outSequenceNr + 1 < 2 ^ 32) :
    ∃ bytes self', NetChannel.writePacket [] self = (.ok bytes, self') := by
  have hcalls : ∀ call ∈ calls events (created configuration a challenge),
      call.Queues (·.length ≤ 566) := by
    refine calls_queues h fun round hround reply hreply data hdata => ?_
    obtain ⟨serverList, hasks⟩ := hasked round hround
    exact round.length_reply (rounds_wellFormed _ _ round hround) hasks haddr hreply hdata
  have hrun : NetChannel.run (NetChannel.new challenge configuration)
      (calls events (created configuration a challenge)) = some self := hself ▸ run_calls h
  obtain ⟨hqueued, hconfiguration⟩ := NetChannel.run_queued hcalls hrun
  have hmore : 566 < configuration.server.maxReliablePacketSize := hroomy
  have hb : Bookkeeping self := NetChannel.run_books (by omega)
    (fun call hcall => (hcalls call hcall).mono fun data hdata => by omega) hrun
  have hfew : ∀ stream ∈ self.outgoingReliableData 0, fragments stream.data.length < 8 := by
    intro stream hstream
    have hshort : stream.data.length ≤ 566 := hqueued.messages stream hstream
    rw [fragments_eq]
    omega
  have hsize : ∀ stream ∈ self.outgoingReliableData 0,
      stream.data.length ≠ self.configuration.server.maxReliablePacketSize := by
    intro stream hstream
    have hshort := hqueued.messages stream hstream
    rw [hconfiguration]
    omega
  obtain ⟨reliable, -, hwrite⟩ := NetChannel.writePacket_ok hb
    (NetChannel.filled_few_of_short hb (by decide) hfew) hsize hqueued.numbered hnext
    (show ∀ m ∈ ([] : List Message), m.Writable by simp)
  exact ⟨_, _, hwrite⟩

end Connection

end QuickplayServer
