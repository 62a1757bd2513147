import QuickplayServer.Quickplay.Background
import QuickplayServer.Quickplay.Preferences
import QuickplayServer.Refusal

/-!
# QuickplayServer.Matchmaking

A connection with its quickplay session (`src/main.rs`).

`find_server` is asked with the preferences that the messages before have set
and with the list that is in force at that moment.  So the answers that
`Connection` takes as given are computed here, and the preferences of a
connection are traced back to everything that its client has sent.
-/

namespace QuickplayServer

/-- A connection as the server creates it. -/
abbrev QuickplayConnection (Addr : Type) : Type := Connection Addr Quickplay.QuickplaySession

namespace Connection

/-- A connection as `create_connection` makes it. -/
def created {Addr : Type} (configuration : Configuration) (clientAddr : Addr)
    (challenge : BitVec 32) : QuickplayConnection Addr :=
  new clientAddr (NetChannel.new challenge configuration) configuration

/-! ## The worker with its session -/

section

variable {Addr F : Type} [ToString Addr] [F32 F]

/-- The address that `find_server` returns, as it is printed. -/
def findServer (serverList : List (ServerInfo Addr F)) (self : QuickplayConnection Addr) :
    Option String :=
  (self.quickplay.findServer serverList).map toString

variable [BitstreamIo]

/-- The round of `handle_packet` for one message, on a server list. -/
def handleMessageOn (serverList : List (ServerInfo Addr F)) (message : Message) :
    Method (QuickplayConnection Addr) Error Unit := do
  handleMessage ((← get).findServer serverList) message

variable [Crc]

/-- `serverLists` are the lists in force when the messages of the packet are handled. -/
def handlePacketOn (serverLists : Nat → List (ServerInfo Addr F)) (data : List UInt8) :
    Method (QuickplayConnection Addr) Error Unit := do
  let messages ← onNetchan (NetChannel.readPacket data)
  messages.zipIdx.forM fun (message, index) => handleMessageOn (serverLists index) message

def processIncomingPacketOn (serverLists : Nat → List (ServerInfo Addr F)) :
    Method (QuickplayConnection Addr) Error Unit := do
  match (← get).packetReceiver with
  | packet :: packetReceiver => do
      modify fun self => { self with packetReceiver }
      let _ ← Method.attempt (handlePacketOn serverLists packet)
  | [] => pure ()

/-- One round of the loop of `background_worker`, and the packet that it sends. -/
def backgroundWorkerRoundOn (serverLists : Nat → List (ServerInfo Addr F)) :
    Method (QuickplayConnection Addr) Error (Option (List UInt8)) := do
  processIncomingPacketOn serverLists
  -- allow the netchannel to send remaining reliable data
  Method.attempt (onNetchan (NetChannel.writePacket []))

/-! ## The answers of `find_server` -/

/-- The answer that the message meets is that of `find_server`, for the
preferences that it meets. -/
def Round.AsksOn (serverList : List (ServerInfo Addr F))
    (round : Round Addr Quickplay.QuickplaySession) : Prop :=
  round.foundServer = round.connection.findServer serverList

omit [Crc] [F32 F] [ToString Addr] in
theorem roundsOfMessages_congr {foundServer foundServer' : Nat → Option String}
    {messages : List (Message × Nat)}
    (h : ∀ message ∈ messages, foundServer message.2 = foundServer' message.2)
    (self : QuickplayConnection Addr) :
    roundsOfMessages foundServer messages self = roundsOfMessages foundServer' messages self := by
  induction messages generalizing self with
  | nil => rfl
  | cons head messages ih =>
      obtain ⟨message, index⟩ := head
      obtain ⟨hindex, hmessages⟩ := List.forall_mem_cons.mp h
      rw [roundsOfMessages, roundsOfMessages, hindex]
      cases hhandle : handleMessage (foundServer' index) message self with
      | mk outcome self' =>
          cases outcome with
          | ok value => exact congrArg _ (ih hmessages self')
          | err e => rfl
          | panic => rfl

omit [Crc] in
/-- Handling messages, with the answers known beforehand. -/
theorem handleMessagesOn_eq (serverLists : Nat → List (ServerInfo Addr F))
    (messages : List Message) (start : Nat) (self : QuickplayConnection Addr) :
    ∃ foundServer,
      (∀ round ∈ roundsOfMessages foundServer (messages.zipIdx start) self,
        ∃ index, round.AsksOn (serverLists index)) ∧
      ((messages.zipIdx start).forM fun (message, index) =>
        handleMessageOn (serverLists index) message : Method _ Error Unit) self =
      ((messages.zipIdx start).forM fun (message, index) =>
        handleMessage (foundServer index) message : Method _ Error Unit) self := by
  induction messages generalizing start self with
  | nil =>
      refine ⟨fun _ => none, by simp [roundsOfMessages], ?_⟩
      rw [List.zipIdx_nil, List.forM_eq_forM, List.forM_nil]
      rfl
  | cons message messages ih =>
      let answer := self.findServer (serverLists start)
      have hstep : handleMessageOn (serverLists start) message self =
          handleMessage answer message self := rfl
      cases hhandle : handleMessage answer message self with
      | mk outcome self' =>
          obtain ⟨foundServer, hasked, heq⟩ := ih (start + 1) self'
          -- the later messages do not ask for the answer to this one
          have hlater : ∀ m ∈ messages.zipIdx (start + 1),
              Function.update foundServer start answer m.2 = foundServer m.2 := by
            intro m hm
            have hle : start + 1 ≤ m.2 := List.le_snd_of_mem_zipIdx hm
            rw [Function.update_of_ne (by omega)]
          refine ⟨Function.update foundServer start answer, ?_, ?_⟩
          · rw [List.zipIdx_cons, roundsOfMessages, Function.update_self, hhandle]
            refine List.forall_mem_cons.mpr ⟨⟨start, rfl⟩, ?_⟩
            cases outcome with
            | err e => simp
            | panic => simp
            | ok value =>
                dsimp only
                rw [roundsOfMessages_congr hlater]
                exact hasked
          · have hforM := Method.forM_congr (σ := QuickplayConnection Addr) (ε := Error)
              (f := fun (m : Message × Nat) =>
                handleMessage (Function.update foundServer start answer m.2) m.1)
              (g := fun (m : Message × Nat) => handleMessage (foundServer m.2) m.1)
              fun m hm => by rw [hlater m hm]
            rw [List.zipIdx_cons, List.forM_eq_forM, List.forM_cons, List.forM_cons,
              Method.bind_apply, Method.bind_apply]
            dsimp only
            rw [Function.update_self, hstep, hhandle]
            cases outcome with
            | err e => rfl
            | panic => rfl
            | ok value =>
                rw [List.forM_eq_forM] at hforM heq
                dsimp only
                rw [hforM]
                exact heq

/-- Handling a packet, with the answers known beforehand. -/
theorem handlePacketOn_eq (serverLists : Nat → List (ServerInfo Addr F)) (data : List UInt8)
    (self : QuickplayConnection Addr) :
    ∃ foundServer,
      (∀ round ∈ roundsOfPacket foundServer data self,
        ∃ index, round.AsksOn (serverLists index)) ∧
      handlePacketOn serverLists data self = handlePacket foundServer data self := by
  unfold handlePacketOn handlePacket roundsOfPacket
  rw [Method.bind_apply]
  cases hread : onNetchan (NetChannel.readPacket data) self with
  | mk outcome self' =>
      cases outcome with
      | ok messages =>
          obtain ⟨foundServer, hasked, heq⟩ := handleMessagesOn_eq serverLists messages 0 self'
          refine ⟨foundServer, hasked, ?_⟩
          rw [Method.bind_apply, hread]
          exact heq
      | err e =>
          refine ⟨fun _ => none, by simp, ?_⟩
          rw [Method.bind_apply, hread]
      | panic =>
          refine ⟨fun _ => none, by simp, ?_⟩
          rw [Method.bind_apply, hread]

theorem processIncomingPacketOn_eq (serverLists : Nat → List (ServerInfo Addr F))
    (self : QuickplayConnection Addr) :
    ∃ foundServer,
      processIncomingPacketOn serverLists self = processIncomingPacket foundServer self := by
  unfold processIncomingPacketOn processIncomingPacket
  rw [Method.get_bind]
  cases hreceiver : self.packetReceiver with
  | nil =>
      refine ⟨fun _ => none, ?_⟩
      rw [Method.get_bind, hreceiver]
  | cons packet packetReceiver =>
      obtain ⟨foundServer, -, heq⟩ :=
        handlePacketOn_eq serverLists packet { self with packetReceiver }
      refine ⟨foundServer, ?_⟩
      rw [Method.get_bind, hreceiver]
      dsimp only
      rw [Method.modify_bind, Method.modify_bind, Method.bind_apply, Method.bind_apply,
        Method.attempt, Method.attempt, heq]

/-- A round of the worker, with the answers known beforehand. -/
theorem backgroundWorkerRoundOn_eq (serverLists : Nat → List (ServerInfo Addr F))
    (self : QuickplayConnection Addr) :
    ∃ foundServer, backgroundWorkerRoundOn serverLists self =
      backgroundWorkerRound foundServer self := by
  obtain ⟨foundServer, heq⟩ := processIncomingPacketOn_eq serverLists self
  refine ⟨foundServer, ?_⟩
  rw [backgroundWorkerRoundOn, backgroundWorkerRound, Method.bind_apply, Method.bind_apply, heq]

end

end Connection

end QuickplayServer
