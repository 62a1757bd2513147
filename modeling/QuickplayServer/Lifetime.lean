import QuickplayServer.Matchmaking

/-!
# QuickplayServer.Lifetime

A connection from its first packet to its last.

The messages of a client meet its preferences one after the other, packet
after packet.  What they meet is what the convars accepted so far say, however
these were cut into messages and packets: the last convar for a preference
wins, and a convar that is refused takes the rest of its message with it.
-/

namespace QuickplayServer

namespace Connection

section

variable {Addr Session : Type} [QuickplaySession Session] [BitstreamIo] [Crc]

/-! ## Runs of a connection -/

/-- The connection after a run; a panic ends it, an error does not. -/
def after : List Event → Connection Addr Session → Connection Addr Session
  | [], self => self
  | event :: events, self =>
      match event.method self with
      | (.panic, self) => self
      | (_, self) => after events self

/-- Nothing in the run panics. -/
def Survives : List Event → Connection Addr Session → Prop
  | [], _ => True
  | event :: events, self =>
      (event.method self).1 ≠ .panic ∧ Survives events (event.method self).2

variable {event : Event} {events events' : List Event} {self : Connection Addr Session}

/-- A run goes on in the state that its first event leaves. -/
theorem after_cons (h : (event.method self).1 ≠ .panic) :
    after (event :: events) self = after events (event.method self).2 := by
  rw [after]
  revert h
  obtain ⟨o, self'⟩ := event.method self
  cases o with
  | ok value => exact fun _ => rfl
  | err e => exact fun _ => rfl
  | panic => exact fun h => absurd rfl h

/-- The rounds of a run are those of its first event and then those of the rest. -/
theorem rounds_cons (h : (event.method self).1 ≠ .panic) :
    rounds (event :: events) self = event.rounds self ++ rounds events (event.method self).2 := by
  rw [rounds]
  revert h
  obtain ⟨o, self'⟩ := event.method self
  cases o with
  | ok value => exact fun _ => rfl
  | err e => exact fun _ => rfl
  | panic => exact fun h => absurd rfl h

/-- Two runs one after the other end where the second ends that begins where the
first has ended. -/
theorem after_append (h : Survives events self) :
    after (events ++ events') self = after events' (after events self) := by
  induction events generalizing self with
  | nil => rfl
  | cons event events ih => rw [List.cons_append, after_cons h.1, after_cons h.1, ih h.2]

/-- The rounds of two runs one after the other are those of the first and then those
of the second. -/
theorem rounds_append (h : Survives events self) :
    rounds (events ++ events') self = rounds events self ++ rounds events' (after events self) := by
  induction events generalizing self with
  | nil => rfl
  | cons event events ih =>
      rw [List.cons_append, rounds_cons h.1, rounds_cons h.1, after_cons h.1, ih h.2,
        List.append_assoc]

/-- A run goes on without a panic exactly if what comes next does. -/
theorem survives_append (h : Survives events self) :
    Survives (events ++ events') self ↔ Survives events' (after events self) := by
  induction events generalizing self with
  | nil => exact Iff.rfl
  | cons event events ih =>
      rw [List.cons_append, Survives, and_iff_right h.1, after_cons h.1, ih h.2]

/-- The packets that are handled in a run. -/
def packets (events : List Event) : List (List UInt8) :=
  events.flatMap fun
    | .packet _ data => [data]
    | .write => []

/-! ## What a run depends on -/

/-- The same channel and the same session. -/
structure Same (one other : Connection Addr Session) : Prop where
  netchan : other.netchan = one.netchan
  quickplay : other.quickplay = one.quickplay

open Method (Relates Respects)

omit [QuickplaySession Session] [BitstreamIo] [Crc] in
/-- A call on the channel only depends on the channel. -/
theorem onNetchan_respects {α : Type} (m : Method NetChannel Error α) :
    Respects Same (onNetchan m : Method (Connection Addr Session) Error α) := by
  intro self self' h
  unfold onNetchan
  rw [h.netchan]
  exact ⟨rfl, rfl, h.quickplay⟩

omit [Crc] in
/-- Handling a message depends on the channel and the session only. -/
theorem handleMessage_respects (foundServer : Option String) (message : Message) : Respects Same
    (handleMessage foundServer message : Method (Connection Addr Session) Error Unit) := by
  cases message with
  | disconnect message => exact Respects.modify fun _ _ h => ⟨h.netchan, h.quickplay⟩
  | signonState message => exact onNetchan_respects _
  | stringCmd message => exact Respects.pure _
  | print message => exact Respects.pure _
  | setConVars message =>
      refine Respects.get_bind fun self self' h => ?_
      dsimp only
      rw [h.quickplay]
      refine Respects.bind (Respects.modify fun _ _ h => ⟨h.netchan, rfl⟩) (fun _ => ?_) self
        self' h
      split
      · exact Respects.pure _
      · exact onNetchan_respects _

/-- The same address, and the same packets to come. -/
structure Aside (one other : Connection Addr Session) : Prop where
  clientAddr : other.clientAddr = one.clientAddr
  packetReceiver : other.packetReceiver = one.packetReceiver

omit [QuickplaySession Session] [BitstreamIo] [Crc] in
/-- A connection has its own address and its own packets to come. -/
theorem Aside.refl (self : Connection Addr Session) : Aside self self := ⟨rfl, rfl⟩

instance : Std.Refl (Aside : Connection Addr Session → Connection Addr Session → Prop) :=
  ⟨Aside.refl⟩

instance : IsTrans (Connection Addr Session) Aside :=
  ⟨fun _ _ _ h h' => ⟨h'.clientAddr.trans h.clientAddr, h'.packetReceiver.trans h.packetReceiver⟩⟩

omit [QuickplaySession Session] [BitstreamIo] [Crc] in
/-- A call on the channel leaves the address and the packets to come. -/
theorem onNetchan_aside {α : Type} (m : Method NetChannel Error α) :
    Relates Aside (onNetchan m : Method (Connection Addr Session) Error α) := fun _ => ⟨rfl, rfl⟩

omit [Crc] in
/-- Handling a message leaves the address and the packets to come. -/
theorem handleMessage_aside (foundServer : Option String) (message : Message) : Relates Aside
    (handleMessage foundServer message : Method (Connection Addr Session) Error Unit) := by
  cases message with
  | disconnect message => exact Relates.modify fun _ => ⟨rfl, rfl⟩
  | signonState message => exact onNetchan_aside _
  | stringCmd message => exact Relates.pure _
  | print message => exact Relates.pure _
  | setConVars message =>
      refine Relates.bind Relates.get fun self => ?_
      refine Relates.bind (Relates.modify fun _ => ⟨rfl, rfl⟩) fun _ => ?_
      split
      · exact Relates.pure _
      · exact onNetchan_aside _

/-- Handling a packet leaves the packets behind it alone. -/
theorem handlePacket_aside (foundServer : Nat → Option String) (data : List UInt8) : Relates Aside
    (handlePacket foundServer data : Method (Connection Addr Session) Error Unit) :=
  Relates.bind (onNetchan_aside _) fun _ => Relates.forM (fun _ => handleMessage_aside _ _) _

/-! ## The session from message to message -/

/-- The session once it has seen a message. -/
def heard (session : Session) (message : Message) : Session :=
  match message with
  | .setConVars message =>
      (QuickplaySession.updatePreferencesFromConvars message.convars session).2
  | _ => session

omit [Crc] in
/-- Only convars change the session, and also when they are refused. -/
theorem handleMessage_quickplay (foundServer : Option String) (message : Message)
    (self : Connection Addr Session) :
    (handleMessage foundServer message self).2.quickplay = heard self.quickplay message := by
  cases message with
  | disconnect message => rfl
  | signonState message => rfl
  | stringCmd message => rfl
  | print message => rfl
  | setConVars message =>
      cases hresult :
          (QuickplaySession.updatePreferencesFromConvars message.convars self.quickplay).1 with
      | ok value =>
          simp only [handleMessage, Method.get_bind, Method.modify_bind, hresult]
          rfl
      | error reason =>
          simp only [handleMessage, Method.get_bind, Method.modify_bind, hresult]
          rfl

/-- Each round meets the session that the round before it leaves; the last one
leaves `session'`. -/
inductive Traces : Session → List (Round Addr Session) → Session → Prop
  | nil (session : Session) : Traces session [] session
  | cons {round : Round Addr Session} {later : List (Round Addr Session)} {session' : Session}
      (h : Traces (heard round.connection.quickplay round.message) later session') :
      Traces round.connection.quickplay (round :: later) session'

omit [BitstreamIo] [Crc] in
/-- Two traces one after the other are one trace. -/
theorem Traces.append {session mid session' : Session} {before later : List (Round Addr Session)}
    (h : Traces session before mid) (h' : Traces mid later session') :
    Traces session (before ++ later) session' := by
  induction h with
  | nil session => exact h'
  | cons _ ih => exact .cons (ih h')

omit [BitstreamIo] [Crc] in
/-- What a round meets is made by the messages before it. -/
theorem Traces.quickplay {session session' : Session} {before later : List (Round Addr Session)}
    {round : Round Addr Session} (h : Traces session (before ++ round :: later) session') :
    round.connection.quickplay = (before.map (·.message)).foldl heard session := by
  induction before generalizing session with
  | nil =>
      cases h
      rfl
  | cons first before ih =>
      cases h with
      | cons h => exact ih h

omit [BitstreamIo] [Crc] in
/-- The session at the end has heard all messages of the rounds, in order. -/
theorem Traces.quickplay_end {session session' : Session} {before : List (Round Addr Session)}
    (h : Traces session before session') :
    session' = (before.map (·.message)).foldl heard session := by
  induction h with
  | nil session => rfl
  | cons _ ih => exact ih

omit [Crc] in
/-- By induction on the messages of a packet: each round hears its message in the
session that the rounds before have left. -/
theorem roundsOfMessages_traces (foundServer : Nat → Option String)
    (messages : List (Message × Nat)) (self : Connection Addr Session) :
    Traces self.quickplay (roundsOfMessages foundServer messages self)
      ((messages.forM fun (message, index) => handleMessage (foundServer index) message :
        Method (Connection Addr Session) Error Unit) self).2.quickplay := by
  induction messages generalizing self with
  | nil => exact .nil _
  | cons head messages ih =>
      obtain ⟨message, index⟩ := head
      have hheard := handleMessage_quickplay (foundServer index) message self
      rw [List.forM_eq_forM, List.forM_cons, Method.bind_apply, roundsOfMessages]
      let round : Round Addr Session := ⟨self, foundServer index, message⟩
      refine show Traces round.connection.quickplay _ _ from .cons ?_
      rw [← hheard]
      dsimp only
      cases hhandle : handleMessage (foundServer index) message self with
      | mk outcome self' =>
          cases outcome with
          | ok value => exact ih self'
          | err e => exact .nil _
          | panic => exact .nil _

/-- The rounds of an event lead from the session before it to the session behind it. -/
theorem Event.traces (event : Event) (self : Connection Addr Session) :
    Traces self.quickplay (event.rounds self) (event.method self).2.quickplay := by
  cases event with
  | write =>
      have hwrite : (Event.write.method self).2.quickplay = self.quickplay := by
        rw [Event.method, Method.bind_apply, onNetchan]
        cases NetChannel.writePacket [] self.netchan with
        | mk outcome netchan => cases outcome <;> rfl
      rw [hwrite]
      exact .nil _
  | packet foundServer data =>
      rw [Event.rounds, Event.method, roundsOfPacket, handlePacket, Method.bind_apply, onNetchan]
      cases hread : NetChannel.readPacket data self.netchan with
      | mk outcome netchan =>
          cases outcome with
          | ok messages => exact roundsOfMessages_traces foundServer _ { self with netchan }
          | err e => exact .nil _
          | panic => exact .nil _

/-- The session of a connection is traced through its whole life. -/
theorem rounds_traces (events : List Event) (self : Connection Addr Session) :
    Traces self.quickplay (rounds events self) (after events self).quickplay := by
  induction events generalizing self with
  | nil => exact .nil _
  | cons event events ih =>
      have hevent := event.traces self
      rw [rounds, after]
      refine hevent.append ?_
      cases hmethod : event.method self with
      | mk outcome self' =>
          cases outcome with
          | ok value => exact ih self'
          | err e => exact ih self'
          | panic => exact .nil _

end

/-! ## Rounds of the worker -/

section

variable {Addr F : Type} [ToString Addr] [F32 F] [BitstreamIo] [Crc]

open Method (Respects)

omit [Crc] in
/-- Handling a message with a server list depends on the channel and the session
only. -/
theorem handleMessageOn_respects (serverList : List (ServerInfo Addr F)) (message : Message) :
    Respects Same (handleMessageOn serverList message) := by
  refine Respects.get_bind fun self self' h => ?_
  have hfound : self'.findServer serverList = self.findServer serverList := by
    rw [findServer, findServer, h.quickplay]
  rw [hfound]
  exact handleMessage_respects _ _ self self' h

/-- Handling a packet with the server lists depends on the channel and the session
only. -/
theorem handlePacketOn_respects (serverLists : Nat → List (ServerInfo Addr F)) (data : List UInt8) :
    Respects Same (handlePacketOn serverLists data) :=
  Respects.bind (onNetchan_respects _) fun _ =>
    Respects.forM (fun _ => handleMessageOn_respects _ _) _

omit [ToString Addr] in
/-- What the worker does at the end of a round. -/
theorem write_lives {self ghost connection : QuickplayConnection Addr} (h : Same ghost self)
    {outcome : Outcome Error (Option (List UInt8))}
    (hwrite : Method.attempt (onNetchan (NetChannel.writePacket [])) self = (outcome, connection))
    (hpanic : outcome ≠ .panic) :
    (Event.write.method ghost).1 ≠ .panic ∧ Same (Event.write.method ghost).2 connection ∧
      Aside self connection := by
  rw [Method.attempt, onNetchan, h.netchan] at hwrite
  rw [Event.method, Method.bind_apply, onNetchan]
  cases hwritten : NetChannel.writePacket [] ghost.netchan with
  | mk o netchan =>
      rw [hwritten] at hwrite
      cases o with
      | ok bytes =>
          obtain ⟨rfl, rfl⟩ := Prod.mk.inj hwrite
          exact ⟨by simp, ⟨rfl, h.quickplay⟩, rfl, rfl⟩
      | err e =>
          obtain ⟨rfl, rfl⟩ := Prod.mk.inj hwrite
          exact ⟨by simp, ⟨rfl, h.quickplay⟩, rfl, rfl⟩
      | panic =>
          obtain ⟨rfl, rfl⟩ := Prod.mk.inj hwrite
          exact absurd rfl hpanic

/-- The worker handles the next packet, if there is one; errors are let go. -/
theorem processIncomingPacketOn_lives (serverLists : Nat → List (ServerInfo Addr F))
    {self ghost read : QuickplayConnection Addr} (h : Same ghost self)
    {outcome : Outcome Error Unit}
    (hread : processIncomingPacketOn serverLists self = (outcome, read))
    (hpanic : outcome ≠ .panic) :
    outcome = .ok () ∧ ∃ events, Survives events ghost ∧ Same (after events ghost) read ∧
      packets events ++ read.packetReceiver = self.packetReceiver ∧
      read.clientAddr = self.clientAddr ∧
      ∀ round ∈ rounds events ghost, ∃ index, round.AsksOn (serverLists index) := by
  rw [processIncomingPacketOn, Method.get_bind] at hread
  cases hreceiver : self.packetReceiver with
  | nil =>
      rw [hreceiver] at hread
      obtain ⟨rfl, rfl⟩ := Prod.mk.inj hread
      exact ⟨rfl, [], trivial, h, hreceiver, rfl, by simp [rounds]⟩
  | cons packet packetReceiver =>
      rw [hreceiver] at hread
      dsimp only at hread
      rw [Method.modify_bind, Method.bind_apply, Method.attempt] at hread
      have hnext : Same ghost { self with packetReceiver } := ⟨h.netchan, h.quickplay⟩
      -- the packet does the same to both
      obtain ⟨houtcome, hstate⟩ := handlePacketOn_respects serverLists packet ghost _ hnext
      obtain ⟨foundServer, hasked, hghost⟩ := handlePacketOn_eq serverLists packet ghost
      rw [hghost] at houtcome hstate
      obtain ⟨foundServer', -, hself⟩ :=
        handlePacketOn_eq serverLists packet { self with packetReceiver }
      have haside := handlePacket_aside foundServer' packet { self with packetReceiver }
      rw [← hself] at haside
      cases hhandled : handlePacketOn serverLists packet { self with packetReceiver } with
      | mk o self' =>
          rw [hhandled] at hread houtcome hstate haside
          obtain ⟨hok, rfl, ho⟩ : outcome = .ok () ∧ read = self' ∧ o ≠ .panic := by
            cases o with
            | ok value =>
                obtain ⟨rfl, rfl⟩ := Prod.mk.inj hread
                exact ⟨rfl, rfl, by simp⟩
            | err e =>
                obtain ⟨rfl, rfl⟩ := Prod.mk.inj hread
                exact ⟨rfl, rfl, by simp⟩
            | panic => exact absurd (Prod.mk.inj hread).1.symm hpanic
          have hmethod : ((Event.packet foundServer packet).method ghost).1 ≠ .panic :=
            houtcome ▸ ho
          refine ⟨hok, [.packet foundServer packet], ⟨hmethod, trivial⟩, ?_, ?_, ?_, ?_⟩
          · rw [after_cons hmethod]
            exact hstate
          · rw [haside.packetReceiver]
            rfl
          · rw [haside.clientAddr]
          · rw [rounds_cons hmethod]
            simpa [Event.rounds, rounds] using hasked

/-- A round of the worker handles the next packet, if there is one, and writes. -/
theorem backgroundWorkerRoundOn_lives (serverLists : Nat → List (ServerInfo Addr F))
    {self ghost connection : QuickplayConnection Addr} (h : Same ghost self)
    {outcome : Outcome Error (Option (List UInt8))}
    (hround : backgroundWorkerRoundOn serverLists self = (outcome, connection))
    (hpanic : outcome ≠ .panic) :
    ∃ events, Survives events ghost ∧ Same (after events ghost) connection ∧
      packets events ++ connection.packetReceiver = self.packetReceiver ∧
      connection.clientAddr = self.clientAddr ∧
      ∀ round ∈ rounds events ghost, ∃ index, round.AsksOn (serverLists index) := by
  rw [backgroundWorkerRoundOn, Method.bind_apply] at hround
  cases hread : processIncomingPacketOn serverLists self with
  | mk o read =>
      rw [hread] at hround
      have ho : o ≠ .panic := by
        rintro rfl
        exact hpanic (Prod.mk.inj hround).1.symm
      obtain ⟨rfl, events, hsurvives, hsame, hpackets, haddr, hasked⟩ :=
        processIncomingPacketOn_lives serverLists h hread ho
      obtain ⟨hwrite, hsame', haside⟩ := write_lives hsame hround hpanic
      refine ⟨events ++ [.write], ?_, ?_, ?_, ?_, ?_⟩
      · exact (survives_append hsurvives).mpr ⟨hwrite, trivial⟩
      · rw [after_append hsurvives, after_cons hwrite]
        exact hsame'
      · rw [packets, List.flatMap_append, haside.packetReceiver, ← hpackets, packets]
        simp
      · rw [haside.clientAddr, haddr]
      · rw [rounds_append hsurvives, rounds_cons hwrite]
        simpa [Event.rounds, rounds] using hasked

end

end Connection

/-! ## Preferences -/

namespace Quickplay.QuickplaySession

/-- The convars of a message up to the first one that is refused. -/
def accepted (self : QuickplaySession) (message : Message) : List (String × String) :=
  match message with
  | .setConVars message => Registers.accepted self.meaning message.convars
  | _ => []

/-- No convar changes the configuration of the session. -/
theorem updatePreferencesFromConvars_configuration (convars : List (String × String))
    (self : QuickplaySession) :
    (updatePreferencesFromConvars convars self).2.configuration = self.configuration := by
  induction convars generalizing self with
  | nil => rfl
  | cons convar convars ih =>
      rw [updatePreferencesFromConvars_cons]
      split
      · exact ih self
      · rfl
      · exact ih _

/-- What a convar means depends on the configuration only. -/
theorem meaning_congr {self self' : QuickplaySession}
    (h : self'.configuration = self.configuration) : self'.meaning = self.meaning := by
  funext convar
  unfold meaning preferenceName
  rw [h]

/-- The messages are a script for the preferences, once what is refused is left out. -/
theorem heard_execute (messages : List Message) (self : QuickplaySession) :
    Registers.execute self.meaning (messages.flatMap self.accepted) self.preferences.get =
      (.ok (), (messages.foldl Connection.heard self).preferences.get) := by
  induction messages generalizing self with
  | nil => rfl
  | cons message messages ih =>
      rw [List.flatMap_cons, List.foldl_cons]
      cases message with
      | setConVars message =>
          have hscript : Registers.execute self.meaning
              (Registers.accepted self.meaning message.convars) self.preferences.get = _ :=
            Registers.execute_accepted message.convars self.preferences.get
          have hmeaning := meaning_congr
            (updatePreferencesFromConvars_configuration message.convars self)
          have haccepted : accepted (updatePreferencesFromConvars message.convars self).2 =
              self.accepted := by
            funext m
            unfold accepted
            rw [hmeaning]
          have hlater := ih (updatePreferencesFromConvars message.convars self).2
          rw [hmeaning, haccepted,
            (updatePreferencesFromConvars_execute message.convars self).2] at hlater
          rw [accepted, Registers.execute_append (by rw [hscript]), hscript]
          exact hlater
      | disconnect message => exact ih self
      | signonState message => exact ih self
      | stringCmd message => exact ih self
      | print message => exact ih self

/-- Each preference is what the last of the convars for it says, and the default
if there is none. -/
def Said (self : QuickplaySession) (convars : List (String × String))
    (preferences : QuickplayPreferences) : Prop :=
  ∀ slot : Quickplay.Slot,
    (∀ before convar later, convars = before ++ convar :: later → self.Targets slot convar →
      (∀ c ∈ later, ¬ self.Targets slot c) → slot.decode convar.2 = .ok (preferences.get slot)) ∧
    ((∀ convar ∈ convars, ¬ self.Targets slot convar) →
      preferences.get slot = QuickplayPreferences.default.get slot)

/-- The preferences after a script that ends well and begins with the defaults. -/
theorem preference_of_execute {self : QuickplaySession} {convars : List (String × String)}
    {preferences : QuickplayPreferences}
    (h : Registers.execute self.meaning convars QuickplayPreferences.default.get =
      (.ok (), preferences.get)) : self.Said convars preferences := by
  intro slot
  obtain ⟨hok, hslots⟩ := Prod.mk.inj h
  refine ⟨fun before convar later hconvars htargets hlater => ?_, fun hnone => ?_⟩
  · have hmem : convar ∈ convars := by simp [hconvars]
    obtain ⟨slot', v, htargets', hdecode⟩ :=
      meaning_ne_error.mp (Registers.execute_eq_ok_iff.mp hok convar hmem) htargets.hasEffect
    obtain rfl := htargets.unique htargets'
    have hlast : _ = v := Registers.execute_of_last hok hconvars
      (meaning_eq_ok.mpr ⟨htargets, hdecode⟩)
      fun c hc w hw => hlater c hc (meaning_eq_ok.mp hw).1
    rw [hdecode, ← hslots, hlast]
  · rw [← hslots]
    exact Registers.execute_of_forall_ne fun convar hconvar v hv =>
      hnone convar hconvar (meaning_eq_ok.mp hv).1

end Quickplay.QuickplaySession

namespace Connection

open Quickplay (QuickplayPreferences)
open Quickplay.QuickplaySession (heard_execute preference_of_execute)

variable {Addr : Type}

/-- The preferences at the end of a run are made by all that was accepted in it. -/
theorem after_execute [BitstreamIo] [Crc] (events : List Event) (clientAddr : Addr)
    (netchan : NetChannel) (configuration : Configuration) :
    let self : QuickplayConnection Addr := new clientAddr netchan configuration
    let session := Quickplay.QuickplaySession.new configuration
    Registers.execute session.meaning
        (((rounds events self).map (·.message)).flatMap session.accepted)
        QuickplayPreferences.default.get =
      (.ok (), (after events self).quickplay.preferences.get) := by
  intro self session
  have hend : (after events self).quickplay =
      ((rounds events self).map (·.message)).foldl heard session :=
    (rounds_traces events self).quickplay_end
  rw [hend, ← heard_execute]
  rfl

/-- The preferences that a message meets are those of the last convars for
them, out of all that were accepted since the connection was created; and so
are the preferences at the end. -/
theorem rounds_preferences [BitstreamIo] [Crc] (events : List Event) (clientAddr : Addr)
    (netchan : NetChannel) (configuration : Configuration) :
    let self : QuickplayConnection Addr := new clientAddr netchan configuration
    let session := Quickplay.QuickplaySession.new configuration
    (∀ before round later, rounds events self = before ++ round :: later →
      session.Said ((before.map (·.message)).flatMap session.accepted)
        round.connection.quickplay.preferences) ∧
    session.Said (((rounds events self).map (·.message)).flatMap session.accepted)
      (after events self).quickplay.preferences := by
  intro self session
  refine ⟨fun before round later hrounds => ?_,
    preference_of_execute (after_execute events clientAddr netchan configuration)⟩
  have htraces := rounds_traces events self
  rw [hrounds] at htraces
  have hmet : round.connection.quickplay = (before.map (·.message)).foldl heard session :=
    htraces.quickplay
  have hscript := heard_execute (before.map (·.message)) session
  rw [← hmet] at hscript
  exact preference_of_execute hscript

/-- A packet that sets the size of the party and then asks for a server. -/
def partyOfThree : Event :=
  .packet (fun _ => none)
    [1, 0, 0, 0, 0, 0, 0, 0, 32, 125, 111, 0, 5, 0, 0, 0, 69, 128, 92, 28, 220, 23, 92, 152, 28,
      93, 222, 215, 92, 154, 94, 25, 192, 12, 128, 33, 0, 0, 0, 0, 0]

/-- The request for a server meets the size of the party that the message before it
has set. -/
theorem rounds_preferences_partyOfThree :
    ∃ before, ∃ round : Round Nat Quickplay.QuickplaySession,
      rounds [partyOfThree] freshConnection = before ++ [round] ∧
      round.connection.quickplay.preferences.get .partySize = (3 : UInt8) := by
  have hmessages : (rounds [partyOfThree] freshConnection).map (·.message) =
      [.setConVars { convars := [("rqp_party_size", "3")] },
        .signonState { signonState := 2, spawnCount := 0 }] := by decide +kernel
  obtain ⟨first, rest, hrounds, hfirst, hrest⟩ := List.map_eq_cons_iff.mp hmessages
  obtain ⟨round, rest, rfl, -, hnil⟩ := List.map_eq_cons_iff.mp hrest
  obtain rfl := List.map_eq_nil_iff.mp hnil
  refine ⟨[first], round, hrounds, ?_⟩
  have hsplit : rounds [partyOfThree] freshConnection = [first] ++ round :: [] := hrounds
  have hsaid := (rounds_preferences [partyOfThree] _ _ _).1 [first] round [] hsplit .partySize
  have hlast := hsaid.1 [] ("rqp_party_size", "3") []
    (by rw [List.map_singleton, hfirst]; decide +kernel)
    ⟨by decide, "party_size", by decide +kernel, by decide +kernel⟩ (by simp)
  exact (Except.ok.inj hlast).symm

end Connection

end QuickplayServer
