import QuickplayServer.Connection
import QuickplayServer.Net.ReadMessages
import QuickplayServer.Quickplay.Session

/-!
# QuickplayServer.Refusal

What a connection queues once it has refused its client.

`handle_packet` answers the messages of a packet one by one, and each answer is
a transfer of its own.  A `Round` is one message with the connection that it
meets; the transfers that the rounds of a run append to the outgoing queue are
compared with what the messages ask for.
-/

namespace QuickplayServer

instance : QuickplaySession Quickplay.QuickplaySession where
  new := Quickplay.QuickplaySession.new
  updatePreferencesFromConvars := Quickplay.QuickplaySession.updatePreferencesFromConvars

namespace Connection

open NetChannel (encodeMessages queueReliableMessages)

/-- The round of `handle_packet` for one message: the connection and the answer
of `find_server` that the message meets. -/
structure Round (Addr Session : Type) where
  connection : Connection Addr Session
  foundServer : Option String
  message : Message

variable {Addr Session : Type} [QuickplaySession Session] [BitstreamIo]

/-- The rounds of the messages of one packet, up to the first that fails. -/
def roundsOfMessages (foundServer : Nat → Option String) :
    List (Message × Nat) → Connection Addr Session → List (Round Addr Session)
  | [], _ => []
  | (message, index) :: messages, self =>
      { connection := self, foundServer := foundServer index, message } ::
        match handleMessage (foundServer index) message self with
        | (.ok (), self) => roundsOfMessages foundServer messages self
        | _ => []

/-- The rounds of one packet. -/
def roundsOfPacket [Crc] (foundServer : Nat → Option String) (data : List UInt8)
    (self : Connection Addr Session) : List (Round Addr Session) :=
  match onNetchan (NetChannel.readPacket data) self with
  | (.ok messages, self) => roundsOfMessages foundServer messages.zipIdx self
  | _ => []

/-- What a connection does, one after the other. -/
inductive Event where
  | packet (foundServer : Nat → Option String) (data : List UInt8)
  | write

def Event.method [Crc] : Event → Method (Connection Addr Session) Error Unit
  | .packet foundServer data => handlePacket foundServer data
  | .write => onNetchan (NetChannel.writePacket []) >>= fun _ => pure ()

def Event.rounds [Crc] : Event → Connection Addr Session → List (Round Addr Session)
  | .packet foundServer data => roundsOfPacket foundServer data
  | .write => fun _ => []

/-- The rounds of a run; a panic ends it, an error does not. -/
def rounds [Crc] : List Event → Connection Addr Session → List (Round Addr Session)
  | [], _ => []
  | event :: events, self => event.rounds self ++
      match event.method self with
      | (.panic, _) => []
      | (_, self) => rounds events self

namespace Round

/-- The transfers that the round queues. -/
def queued (round : Round Addr Session) : List OutgoingReliableData :=
  let (_, self) := handleMessage round.foundServer round.message round.connection
  (self.netchan.outgoingReliableData 0).drop
    (round.connection.netchan.outgoingReliableData 0).length

/-- The preferences in the message are refused, for `reason`. -/
def Invalid (round : Round Addr Session) (message : MessageSetConVars) (reason : String) : Prop :=
  (QuickplaySession.updatePreferencesFromConvars message.convars round.connection.quickplay).1 =
    .error reason

end Round

/-- A message with this text fits a transfer. -/
def Fits (text : String) : Prop := (asBytes text).length + 2 < 2 ^ 32

instance (text : String) : Decidable (Fits text) := inferInstanceAs (Decidable (_ < _))

namespace Round

/-- The client is refused: no server matches, or its preferences are invalid. -/
def Refused (round : Round Addr Session) : Prop :=
  match round.message with
  | .signonState _ => round.foundServer = none
  | .setConVars message => ∃ reason, round.Invalid message reason ∧ Fits reason
  | _ => False

/-- The client is refused or redirected. -/
def Answered (round : Round Addr Session) : Prop :=
  match round.message with
  | .signonState _ => ∀ destinationServer, round.foundServer = some destinationServer →
      Fits ("redirect " ++ destinationServer)
  | .setConVars message => ∃ reason, round.Invalid message reason ∧ Fits reason
  | _ => False

end Round

/-- The transfer contains a `Disconnect`. -/
def IsDisconnect (stream : OutgoingReliableData) : Prop :=
  ∃ reason, encodeMessages [.disconnect { reason }] = .ok stream.data

/-! ## The transfer of one message -/

theorem encodeMessages_text {message : Message} {messageType : Nat} {text : String}
    (h : message.content = some (messageType, text)) :
    ∃ data, encodeMessages [message] = .ok data ∧ data.length = (asBytes text).length + 2 := by
  have hwritable : ∀ m ∈ [message], m.Writable := by
    rw [List.forall_mem_singleton, Message.Writable, h]
    rfl
  refine ⟨_, NetChannel.encodeMessages_eq hwritable, ?_⟩
  rw [BitList.length_toBytes (BitList.dvd_length_align _), BitList.length_align]
  simp only [Message.bitsAll_cons, Message.bitsAll_nil, List.append_nil, Message.bits, h,
    List.length_append, BitList.length_ofNat, length_stringBits, NETMSG_TYPE_BITS, BitList.padding]
  omega

/-- A message that can be written is queued exactly when it fits a transfer. -/
theorem queueReliableMessages_text {message : Message} {messageType : Nat} {text : String}
    (h : message.content = some (messageType, text)) (self : NetChannel) :
    (Fits text ∧ ∃ stream : OutgoingReliableData, encodeMessages [message] = .ok stream.data ∧
      queueReliableMessages [message] self =
        (.ok (), self.setOutgoing 0 (self.outgoingReliableData 0 ++ [stream]))) ∨
    (¬ Fits text ∧ ∃ e, queueReliableMessages [message] self = (.err e, self)) := by
  obtain ⟨data, hencode, hlength⟩ := encodeMessages_text h
  unfold queueReliableMessages Fits
  rw [hencode, Method.lift_bind_ok, ← hlength]
  by_cases hfits : data.length < 2 ^ 32
  · refine .inl ⟨hfits, ⟨0, 0, data, hfits⟩, rfl, ?_⟩
    simp only [OutgoingReliableData.new, hfits, dif_pos, Method.lift_bind_ok, Method.modify_apply]
  · refine .inr ⟨hfits, .outgoingSizeTooLarge, ?_⟩
    simp only [OutgoingReliableData.new, hfits, dif_neg, not_false_eq_true, Method.lift_bind_err]

theorem not_isDisconnect_stringCmd {message : MessageStringCmd} {stream : OutgoingReliableData}
    (h : encodeMessages [.stringCmd message] = .ok stream.data) : ¬ IsDisconnect stream := by
  rintro ⟨reason, hreason⟩
  have hbits := (NetChannel.ofBytes_encodeMessages h).2
  rw [(NetChannel.ofBytes_encodeMessages hreason).2] at hbits
  have htype := congrArg (List.take NETMSG_TYPE_BITS) hbits
  simp only [BitList.align, Message.bitsAll_cons, Message.bits, Message.content, List.append_assoc]
    at htype
  rw [List.take_left' (BitList.length_ofNat _ _), List.take_left' (BitList.length_ofNat _ _)]
    at htype
  exact absurd htype (by decide)

/-! ## What a round queues -/

/-- An answer is queued, as one transfer, when it fits. -/
theorem queued_of_reply (round : Round Addr Session) (reply : Message) {messageType : Nat}
    {text : String} (hcontent : reply.content = some (messageType, text))
    {self : Connection Addr Session} (hself : self.netchan = round.connection.netchan)
    (h : handleMessage round.foundServer round.message round.connection =
      onNetchan (queueReliableMessages [reply]) self) :
    (Fits text ∧ ∃ stream, round.queued = [stream] ∧ encodeMessages [reply] = .ok stream.data) ∨
      ¬ Fits text ∧ round.queued = [] := by
  unfold Round.queued
  rw [h, onNetchan, ← hself]
  obtain ⟨hfits, stream, hencode, hqueue⟩ | ⟨hfits, e, hqueue⟩ :=
    queueReliableMessages_text hcontent self.netchan
  · refine .inl ⟨hfits, stream, ?_, hencode⟩
    rw [hqueue]
    simp
  · refine .inr ⟨hfits, ?_⟩
    rw [hqueue]
    simp

theorem queued_of_pure {round : Round Addr Session} (self : Connection Addr Session)
    (hself : self.netchan = round.connection.netchan)
    (h : handleMessage round.foundServer round.message round.connection = (.ok (), self)) :
    round.queued = [] := by
  unfold Round.queued
  rw [h]
  dsimp only
  rw [hself]
  exact List.drop_length

/-- The connection with the preferences of the convars. -/
def updated (self : Connection Addr Session) (message : MessageSetConVars) :
    Connection Addr Session :=
  { self with
    quickplay := (QuickplaySession.updatePreferencesFromConvars message.convars self.quickplay).2 }

/-- A round queues one transfer if its message is answered, and it is a
`Disconnect` if the client is refused. -/
theorem Round.queued_cases (round : Round Addr Session) :
    (round.Answered ∧ ∃ stream, round.queued = [stream] ∧ (IsDisconnect stream ↔ round.Refused)) ∨
      ¬ round.Answered ∧ ¬ round.Refused ∧ round.queued = [] := by
  obtain ⟨self, foundServer, message⟩ := round
  cases message with
  | disconnect message =>
      exact .inr ⟨id, id, queued_of_pure self.cancel rfl rfl⟩
  | stringCmd message => exact .inr ⟨id, id, queued_of_pure self rfl rfl⟩
  | print message => exact .inr ⟨id, id, queued_of_pure self rfl rfl⟩
  | signonState message =>
      cases foundServer with
      | none =>
          obtain ⟨-, stream, hqueued, hencode⟩ | ⟨hfits, -⟩ :=
            queued_of_reply ⟨self, none, .signonState message⟩
              (.disconnect { reason := "No matches found with selected filter" }) rfl rfl rfl
          · refine .inl ⟨fun destinationServer h => ?_, stream, hqueued, ?_⟩
            · cases h
            · exact iff_of_true ⟨_, hencode⟩ rfl
          · exact absurd (by decide) hfits
      | some destinationServer =>
          have hrefused : ¬ Round.Refused ⟨self, some destinationServer, .signonState message⟩ :=
            Option.some_ne_none _
          obtain ⟨hfits, stream, hqueued, hencode⟩ | ⟨hfits, hqueued⟩ :=
            queued_of_reply ⟨self, some destinationServer, .signonState message⟩
              (.stringCmd { command := "redirect " ++ destinationServer }) rfl rfl rfl
          · refine .inl ⟨fun _ h => Option.some.inj h ▸ hfits, stream, hqueued, ?_⟩
            exact iff_of_false (not_isDisconnect_stringCmd hencode) hrefused
          · exact .inr ⟨fun h => hfits (h _ rfl), hrefused, hqueued⟩
  | setConVars message =>
      cases hresult :
          (QuickplaySession.updatePreferencesFromConvars message.convars self.quickplay).1 with
      | ok value =>
          have hvalid :
              ¬ ∃ reason, Round.Invalid ⟨self, foundServer, .setConVars message⟩ message reason ∧
              Fits reason := by
            rintro ⟨reason, hinvalid, -⟩
            cases hresult.symm.trans hinvalid
          refine .inr ⟨hvalid, hvalid, queued_of_pure (self.updated message) (by rfl) ?_⟩
          simp only [handleMessage, Method.get_bind, Method.modify_bind, hresult]
          rfl
      | error reason =>
          have hhandle : handleMessage foundServer (.setConVars message) self =
              onNetchan (queueReliableMessages [.disconnect { reason }])
              (self.updated message) := by
            simp only [handleMessage, Method.get_bind, Method.modify_bind, hresult]
            rfl
          obtain ⟨hfits, stream, hqueued, hencode⟩ | ⟨hfits, hqueued⟩ :=
            queued_of_reply ⟨self, foundServer, .setConVars message⟩ (.disconnect { reason }) rfl
              (by rfl) hhandle
          · refine .inl ⟨⟨reason, hresult, hfits⟩, stream, hqueued, ?_⟩
            exact iff_of_true ⟨_, hencode⟩ ⟨reason, hresult, hfits⟩
          · have hlong : ¬ ∃ reason, Round.Invalid ⟨self, foundServer, .setConVars message⟩ message
                reason ∧ Fits reason := by
              rintro ⟨reason', hinvalid, hfits'⟩
              cases hresult.symm.trans hinvalid
              exact hfits hfits'
            exact .inr ⟨hlong, hlong, hqueued⟩

/-! ## The queue and the rounds -/

/-- The transfers of stream 0 stay in front. -/
def Extends (self self' : Connection Addr Session) : Prop :=
  self.netchan.outgoingReliableData 0 <+: self'.netchan.outgoingReliableData 0

omit [BitstreamIo] [QuickplaySession Session] in
theorem Extends.refl (self : Connection Addr Session) : Extends self self := List.prefix_refl _

instance : Std.Refl (Extends : Connection Addr Session → Connection Addr Session → Prop) :=
  ⟨Extends.refl⟩

instance : IsTrans (Connection Addr Session) Extends := ⟨fun _ _ _ h h' => h.trans h'⟩

open Method (Relates)

omit [QuickplaySession Session] in
theorem queueReliableMessages_extends (messages : List Message) : Relates Extends
    (onNetchan (queueReliableMessages messages) : Method (Connection Addr Session) Error Unit) := by
  intro self
  unfold Extends onNetchan
  obtain ⟨stream, -, -, -, h⟩ | ⟨e, h⟩ :=
    NetChannel.queueReliableMessages_cases messages self.netchan
  · rw [h, NetChannel.setOutgoing_outgoingReliableData, Function.update_self]
    exact List.prefix_append _ _
  · rw [h]

theorem handleMessage_extends (foundServer : Option String) (message : Message) : Relates Extends
    (handleMessage foundServer message : Method (Connection Addr Session) Error Unit) := by
  cases message with
  | disconnect message => exact Relates.modify fun _ => List.prefix_refl _
  | signonState message => exact queueReliableMessages_extends _
  | setConVars message =>
      refine Relates.bind Relates.get fun self => ?_
      refine Relates.bind (Relates.modify fun _ => List.prefix_refl _) fun _ => ?_
      split
      · exact Relates.pure _
      · exact queueReliableMessages_extends _
  | stringCmd message => exact Relates.pure _
  | print message => exact Relates.pure _

theorem handleMessage_outgoing (round : Round Addr Session) :
    (handleMessage round.foundServer round.message round.connection).2.netchan.outgoingReliableData
        0 = round.connection.netchan.outgoingReliableData 0 ++ round.queued :=
  List.prefix_iff_eq_append.mp (handleMessage_extends _ _ round.connection) |>.symm

/-- What handling the messages of a packet queues is what its rounds queue. -/
theorem roundsOfMessages_outgoing (foundServer : Nat → Option String)
    (messages : List (Message × Nat)) (self : Connection Addr Session) :
    ((messages.forM fun (message, index) => handleMessage (foundServer index) message :
        Method (Connection Addr Session) Error Unit) self).2.netchan.outgoingReliableData 0 =
      self.netchan.outgoingReliableData 0 ++
        (roundsOfMessages foundServer messages self).flatMap Round.queued := by
  induction messages generalizing self with
  | nil => exact (List.append_nil _).symm
  | cons head messages ih =>
      obtain ⟨message, index⟩ := head
      have hround := handleMessage_outgoing ⟨self, foundServer index, message⟩
      rw [List.forM_eq_forM, List.forM_cons, Method.bind_apply, roundsOfMessages,
        List.flatMap_cons, ← List.append_assoc, ← hround]
      dsimp only
      cases hhandle : handleMessage (foundServer index) message self with
      | mk outcome self' =>
          cases outcome with
          | ok value => exact ih self'
          | err e => exact (List.append_nil _).symm
          | panic => exact (List.append_nil _).symm

theorem handlePacket_outgoing [Crc] (foundServer : Nat → Option String) (data : List UInt8)
    (self : Connection Addr Session) :
    (handlePacket foundServer data self).2.netchan.outgoingReliableData 0 =
      (NetChannel.readPacket data self.netchan).2.outgoingReliableData 0 ++
        (roundsOfPacket foundServer data self).flatMap Round.queued := by
  unfold handlePacket roundsOfPacket
  rw [Method.bind_apply]
  unfold onNetchan
  cases hread : NetChannel.readPacket data self.netchan with
  | mk outcome netchan =>
      cases outcome with
      | ok messages => exact roundsOfMessages_outgoing foundServer messages.zipIdx _
      | err e => exact (List.append_nil _).symm
      | panic => exact (List.append_nil _).symm

/-- No transfer is queued behind a `Disconnect` exactly when no message asks
for an answer after the client was refused. -/
theorem nothing_behind_disconnect_iff [Crc] (events : List Event) (self : Connection Addr Session) :
    (((rounds events self).flatMap Round.queued).Pairwise fun stream _ => ¬ IsDisconnect stream) ↔
      (rounds events self).Pairwise fun round later => round.Refused → ¬ later.Answered := by
  have hsingle : ∀ round : Round Addr Session,
      round.queued.Pairwise fun stream _ => ¬ IsDisconnect stream := by
    intro round
    obtain ⟨-, stream, hqueued, -⟩ | ⟨-, -, hqueued⟩ := round.queued_cases
    · rw [hqueued]
      exact List.pairwise_singleton _ _
    · rw [hqueued]
      exact List.Pairwise.nil
  rw [List.pairwise_flatMap, and_iff_right fun round _ => hsingle round]
  refine List.Pairwise.iff fun round later => ?_
  obtain ⟨-, stream, hqueued, hrefused⟩ | ⟨-, hrefused, hqueued⟩ := round.queued_cases
  · obtain ⟨hanswered, stream', hqueued', -⟩ | ⟨hanswered, -, hqueued'⟩ := later.queued_cases
    · simp [hqueued, hqueued', hanswered, hrefused]
    · simp [hqueued', hanswered]
  · simp [hqueued, hrefused]

end Connection

/-! ## A client that is refused twice -/

open Connection in
/-- A packet with two `SignonState` messages. -/
def signonTwice : Event :=
  .packet (fun _ => none)
    [1, 0, 0, 0, 0, 0, 0, 0, 32, 165, 154, 0, 5, 0, 0, 0, 134, 64, 0, 0, 0, 128, 33, 16, 0, 0, 0, 0]

/-- A connection on which nothing has been exchanged. -/
def freshConnection : Connection Nat Quickplay.QuickplaySession :=
  Connection.new 0 NetChannel.fresh Configuration.loadDefault

/-- The transfer that refuses a client for want of a server. -/
def noMatches : OutgoingReliableData where
  ackedFragments := 0
  pendingFragments := 0
  data :=
    [129, 211, 27, 72, 91, 24, 221, 24, 90, 217, 28, 136, 217, 91, 157, 27, 25, 200, 93, 26, 29, 26,
      200, 92, 25, 91, 217, 24, 93, 25, 25, 136, 89, 26, 27, 93, 153, 28, 0]
  fits := by decide

open Connection in
/-- With no server to redirect to, the client is disconnected twice. -/
theorem signonTwice_disconnects :
    (rounds [signonTwice] freshConnection).flatMap Round.queued = [noMatches, noMatches] ∧
      IsDisconnect noMatches ∧
      ¬ ((rounds [signonTwice] freshConnection).flatMap Round.queued).Pairwise fun stream _ =>
        ¬ IsDisconnect stream := by
  have hqueued : (rounds [signonTwice] freshConnection).flatMap Round.queued =
      [noMatches, noMatches] := by decide +kernel
  have hdisconnect : IsDisconnect noMatches :=
    ⟨"No matches found with selected filter", by decide +kernel⟩
  refine ⟨hqueued, hdisconnect, ?_⟩
  rw [hqueued]
  exact fun h => List.rel_of_pairwise_cons h List.mem_cons_self hdisconnect

end QuickplayServer
