import QuickplayServer.Matchmaking
import QuickplayServer.Net.Handshake
import QuickplayServer.Quickplay.Background
import QuickplayServer.Quickplay.Relax
import QuickplayServer.Server

/-!
# QuickplayServer.Service

The whole server (`src/main.rs`): the datagrams that come in, the tasks, the
server lists that are read, and the datagrams that go out.

A `send_to` is over at once, and so is a round of a worker: whatever another
task does in the meantime could as well have been done before or after it.
Only the list that `find_server` looks through may be an older one.
-/

namespace QuickplayServer

/-- The server with what it has read and sent. -/
structure Service (Addr F : Type) where
  server : Server Addr Quickplay.QuickplaySession
  /-- The server lists that have been in force, the last one first. -/
  serverLists : List (List (ServerInfo Addr F))
  sent : Sent Addr

/-- A step of a task that neither reads nor sends anything. -/
inductive TaskStep where
  /-- The rest of `create_connection`. -/
  | insert
  /-- The timer of `remove_dead_connection`. -/
  | timeout (index : Nat)
  /-- The token of `remove_dead_connection`. -/
  | cancelled (index : Nat)
  /-- The rest of `remove_dead_connection`. -/
  | remove (index : Nat)
  deriving DecidableEq, Repr

def TaskStep.event {Addr : Type} : TaskStep → Event Addr
  | .insert => .insert
  | .timeout index => .timeout index
  | .cancelled index => .cancelled index
  | .remove index => .remove index

inductive Input (Addr : Type) where
  /-- `recv_from` returns a datagram. -/
  | receive (socket : UdpSocket Addr) (source : Addr) (datagram : List UInt8)
  /-- A round of `background_worker`; `inForce` says for each message which of
  the lists is in force. -/
  | work (socket : UdpSocket Addr) (index : Nat) (inForce : Nat → Nat)
  | task (step : TaskStep)
  /-- A round of `run_background`. -/
  | refresh (refresh : Refresh)

/-- The size of the buffer of `run`. -/
def MAX_DATAGRAM : Nat := 2 ^ 16 - 1

section

variable {Addr F : Type} [ToString Addr] [F32 F] [BitstreamIo] [Crc]

/-- A round of the loop of `background_worker`, and the packet that it sends. -/
def Spawned.workOn (serverLists : Nat → List (ServerInfo Addr F))
    (self : Spawned Addr Quickplay.QuickplaySession) :
    Spawned Addr Quickplay.QuickplaySession × Option (List UInt8) :=
  if self.connection.cancelToken then ({ self with working := false }, none)
  else
    match self.connection.backgroundWorkerRoundOn serverLists with
    | (.ok data, connection) => ({ self with connection }, data)
    | (.err _, connection) => ({ self with connection }, none)
    | (.panic, connection) => ({ self with connection, working := false }, none)

/-- What other tasks see of a round. -/
theorem Spawned.workOn_eq (serverLists : Nat → List (ServerInfo Addr F))
    (self : Spawned Addr Quickplay.QuickplaySession) :
    ∃ foundServer, (self.workOn serverLists).1 = self.work foundServer := by
  obtain ⟨foundServer, heq⟩ := self.connection.backgroundWorkerRoundOn_eq serverLists
  refine ⟨foundServer, ?_⟩
  unfold workOn work
  rw [heq]
  split
  · rfl
  · cases self.connection.backgroundWorkerRound foundServer with
    | mk outcome connection => cases outcome <;> rfl

end

namespace Service

open Connectionless (processConnectionlessPacket processConnectionlessPacket_eq_ok_some_iff
  getChallengeForAddress sendTo connectionReply ConnectRequest)

variable {Addr F SnapError : Type}

section

variable [DecidableEq Addr] [ToString Addr] [AddressHasher Addr] [SocketAddr Addr] [F32 F]
variable [SerdeJson F] [Snap SnapError] [BitstreamIo] [Crc]

def new (configuration : Configuration) : Service Addr F where
  server := Server.new configuration
  serverLists := [[]]
  sent := []

/-- `self.handle_packet(from, packet_data)`. -/
def handlePacket (socket : UdpSocket Addr) (source : Addr) (packetData : List UInt8)
    (self : Service Addr F) : Option (Service Addr F) :=
  match decodeRawPacket packetData with
  | .error _ => some self
  | .ok (.connectionless data) =>
      match processConnectionlessPacket socket source data self.server.configuration self.sent with
      | (.ok (some challenge), sent) => do
          let server ← self.server.step (.connect source challenge)
          some { self with server, sent }
      | (_, sent) => some { self with sent }
  | .ok (.regular data) => do
      let server ← self.server.step (.packet source data)
      some { self with server }

/-- The receive loop takes the next datagram once `create_connection` is done. -/
def step (self : Service Addr F) : Input Addr → Option (Service Addr F)
  | .receive socket source datagram =>
      if self.server.inserting.isNone then
        self.handlePacket socket source (datagram.take MAX_DATAGRAM)
      else none
  | .work socket index inForce =>
      match self.server.spawned[index]? with
      | some task =>
          if task.working then
            let (task', data) :=
              task.workOn fun message => self.serverLists.getD (inForce message) []
            some { self with
              server := { self.server with spawned := self.server.spawned.set index task' }
              sent :=
                match data with
                | some data => (sendTo socket data task.connection.clientAddr self.sent).2
                | none => self.sent }
          else none
      | none => none
  | .task step => do
      let server ← self.server.step step.event
      some { self with server }
  | .refresh refresh =>
      some { self with
        serverLists :=
          QuickplayGlobal.runBackgroundRound self.server.configuration
            (self.serverLists.headD []) refresh :: self.serverLists }

/-! ## What a step does -/

/-- The packet that is in a datagram. -/
def received (datagram : List UInt8) : Except (PacketDecoderError SnapError) DecodedPacket :=
  decodeRawPacket (datagram.take MAX_DATAGRAM)

/-- Every kind of step. -/
inductive Steps (self : Service Addr F) : Input Addr → Service Addr F → Prop
  /-- A connect is accepted. -/
  | accept {socket : UdpSocket Addr} {source : Addr} {datagram data : List UInt8}
      {challenge : BitVec 32} {server : Server Addr Quickplay.QuickplaySession} {sent : Sent Addr}
      (hdecode : received datagram = .ok (.connectionless data))
      (hprocess : processConnectionlessPacket socket source data self.server.configuration
        self.sent = (.ok (some challenge), sent))
      (hserver : self.server.step (.connect source challenge) = some server) :
      Steps self (.receive socket source datagram) { self with server, sent }
  /-- Any other connectionless packet. -/
  | answer {socket : UdpSocket Addr} {source : Addr} {datagram data : List UInt8}
      {outcome : Outcome ConnectionlessError (Option (BitVec 32))} {sent : Sent Addr}
      (hdecode : received datagram = .ok (.connectionless data))
      (hprocess : processConnectionlessPacket socket source data self.server.configuration
        self.sent = (outcome, sent))
      (houtcome : ∀ challenge, outcome ≠ .ok (some challenge))
      (hready : self.server.inserting = none) :
      Steps self (.receive socket source datagram) { self with sent }
  /-- A packet for a channel. -/
  | regular {socket : UdpSocket Addr} {source : Addr} {datagram data : List UInt8}
      {server : Server Addr Quickplay.QuickplaySession}
      (hdecode : received datagram = .ok (.regular data))
      (hserver : self.server.step (.packet source data) = some server) :
      Steps self (.receive socket source datagram) { self with server }
  | drop {socket : UdpSocket Addr} {source : Addr} {datagram : List UInt8}
      {e : PacketDecoderError SnapError} (hdecode : received datagram = .error e)
      (hready : self.server.inserting = none) :
      Steps self (.receive socket source datagram) self
  | work {socket : UdpSocket Addr} {index : Nat} {inForce : Nat → Nat}
      {task : Spawned Addr Quickplay.QuickplaySession} {sent : Sent Addr}
      (hindex : self.server.spawned[index]? = some task) (hworking : task.working = true)
      (hsent : sent = self.sent ∨ ∃ data,
        (task.workOn fun message => self.serverLists.getD (inForce message) []).2 = some data ∧
        sent = self.sent ++ [(task.connection.clientAddr, data)]) :
      Steps self (.work socket index inForce)
        { self with
          server := { self.server with
            spawned := self.server.spawned.set index
              (task.workOn fun message => self.serverLists.getD (inForce message) []).1 }
          sent }
  | task {step : TaskStep} {server : Server Addr Quickplay.QuickplaySession}
      (hserver : self.server.step step.event = some server) :
      Steps self (.task step) { self with server }
  | refresh (refresh : Refresh) :
      Steps self (.refresh refresh) { self with
        serverLists :=
          QuickplayGlobal.runBackgroundRound self.server.configuration
            (self.serverLists.headD []) refresh :: self.serverLists }

theorem step_cases {self self' : Service Addr F} {input : Input Addr}
    (hstep : self.step input = some self') : Steps self input self' := by
  cases input with
  | receive socket source datagram =>
      simp only [step] at hstep
      split at hstep
      case isFalse => cases hstep
      case isTrue hready =>
        rw [Option.isNone_iff_eq_none] at hready
        unfold handlePacket at hstep
        split at hstep
        case h_1 e hdecode =>
          obtain rfl := Option.some.inj hstep
          exact .drop hdecode hready
        case h_2 data hdecode =>
          split at hstep
          case h_1 challenge sent hprocess =>
            obtain ⟨server, hserver, heq⟩ := Option.bind_eq_some_iff.mp hstep
            obtain rfl := Option.some.inj heq
            exact .accept hdecode hprocess hserver
          case h_2 outcome sent houtcome hprocess =>
            obtain rfl := Option.some.inj hstep
            exact .answer hdecode hprocess houtcome hready
        case h_3 data hdecode =>
          obtain ⟨server, hserver, heq⟩ := Option.bind_eq_some_iff.mp hstep
          obtain rfl := Option.some.inj heq
          exact .regular hdecode hserver
  | work socket index inForce =>
      simp only [step] at hstep
      split at hstep
      case h_2 => cases hstep
      case h_1 task hindex =>
        split at hstep
        case isFalse => cases hstep
        case isTrue hworking =>
          obtain rfl := Option.some.inj hstep
          refine .work hindex hworking ?_
          split
          case h_2 => exact .inl rfl
          case h_1 data hdata =>
            unfold sendTo
            split
            · exact .inr ⟨data, hdata, rfl⟩
            · exact .inl rfl
  | task step =>
      obtain ⟨server, hserver, heq⟩ := Option.bind_eq_some_iff.mp hstep
      obtain rfl := Option.some.inj heq
      exact .task hserver
  | refresh refresh =>
      obtain rfl := Option.some.inj hstep
      exact .refresh refresh

/-! ## The connections of the service -/

/-- The address that the input lets in, if it lets one in. -/
def admitted (configuration : Configuration) : Input Addr → Option Addr
  | .receive socket source datagram =>
      match received datagram with
      | .ok (.connectionless data) =>
          match processConnectionlessPacket socket source data configuration [] with
          | (.ok (some _), _) => some source
          | _ => none
      | _ => none
  | _ => none

omit [DecidableEq Addr] [ToString Addr] [SocketAddr Addr] [Crc] in
/-- An address is let in by a connect that says back its challenge, once the
reply to it is sent. -/
theorem admitted_eq_some_iff {configuration : Configuration} {input : Input Addr} {a : Addr} :
    admitted configuration input = some a ↔
      ∃ socket datagram header clientChallenge rest, input = .receive socket a datagram ∧
        received datagram = .ok (.connectionless (header ++
          ((ConnectRequest.valid (getChallengeForAddress a) clientChallenge).bytes ++ rest))) ∧
        header.length = 4 ∧ socket.accepts a (connectionReply clientChallenge) := by
  constructor
  · intro h
    unfold admitted at h
    split at h
    case h_2 => cases h
    case h_1 socket source datagram =>
      split at h
      case h_2 => cases h
      case h_1 data hdecode =>
        split at h
        case h_2 => cases h
        case h_1 challenge sent hprocess =>
          obtain rfl := Option.some.inj h
          obtain ⟨rfl, header, clientChallenge, rest, hheader, rfl, haccepts, -⟩ :=
            processConnectionlessPacket_eq_ok_some_iff.mp hprocess
          exact ⟨socket, datagram, header, clientChallenge, rest, rfl, hdecode, hheader, haccepts⟩
  · rintro ⟨socket, datagram, header, clientChallenge, rest, rfl, hdecode, hheader, haccepts⟩
    have hprocess : processConnectionlessPacket socket a _ configuration [] = _ :=
      processConnectionlessPacket_eq_ok_some_iff.mpr
        ⟨rfl, header, clientChallenge, rest, hheader, rfl, haccepts, rfl⟩
    simp only [admitted, hdecode, hprocess]

/-- A step of the service is at most one step of its connections, and creates
one exactly for the address that it lets in. -/
theorem Steps.event {self self' : Service Addr F} {input : Input Addr}
    (h : Steps self input self') :
    (admitted self.server.configuration input = none ∧ self'.server = self.server) ∨
    (admitted self.server.configuration input = none ∧
      ∃ event, (∀ source challenge, event ≠ .connect source challenge) ∧
        self.server.step event = some self'.server) ∨
    (∃ source, admitted self.server.configuration input = some source ∧
      self.server.step (.connect source (getChallengeForAddress source)) = some self'.server) := by
  cases h with
  | @accept socket source datagram data challenge server sent hdecode hprocess hserver =>
      obtain ⟨rfl, header, clientChallenge, rest, hheader, rfl, haccepts, -⟩ :=
        processConnectionlessPacket_eq_ok_some_iff.mp hprocess
      refine .inr (.inr ⟨source, admitted_eq_some_iff.mpr ?_, hserver⟩)
      exact ⟨socket, datagram, header, clientChallenge, rest, rfl, hdecode, hheader, haccepts⟩
  | @answer socket source datagram data outcome sent hdecode hprocess houtcome hready =>
      refine .inl ⟨?_, rfl⟩
      rw [Option.eq_none_iff_forall_ne_some]
      intro a ha
      obtain ⟨_, _, header, clientChallenge, rest, heq, hdecode', hheader, haccepts⟩ :=
        admitted_eq_some_iff.mp ha
      obtain ⟨rfl, rfl, rfl⟩ := Input.receive.inj heq
      obtain rfl := DecodedPacket.connectionless.inj (Except.ok.inj (hdecode.symm.trans hdecode'))
      have hok : processConnectionlessPacket socket source _ self.server.configuration self.sent =
          _ := processConnectionlessPacket_eq_ok_some_iff.mpr
        ⟨rfl, header, clientChallenge, rest, hheader, rfl, haccepts, rfl⟩
      exact houtcome _ (Prod.mk.inj (hprocess.symm.trans hok)).1
  | @regular socket source datagram data server hdecode hserver =>
      refine .inr (.inl ⟨?_, .packet source data, by simp, hserver⟩)
      simp only [admitted, hdecode]
  | @drop socket source datagram e hdecode hready =>
      refine .inl ⟨?_, rfl⟩
      simp only [admitted, hdecode]
  | @work socket index inForce task sent hindex hworking hsent =>
      obtain ⟨foundServer, hwork⟩ :=
        task.workOn_eq fun message => self.serverLists.getD (inForce message) []
      refine .inr (.inl ⟨rfl, .work index foundServer, by simp,
        Server.onTask_eq_some.mpr ⟨⟨task, hindex, hworking⟩, ?_⟩⟩)
      rw [hwork, List.modify_eq_set_getElem?, hindex]
      rfl
  | @task step server hserver =>
      refine .inr (.inl ⟨rfl, step.event, ?_, hserver⟩)
      cases step <;> simp [TaskStep.event]
  | refresh refresh => exact .inl ⟨rfl, rfl⟩

end

/-! ## A small world -/

instance : AddressHasher (Fin 16) where
  finish addr := BitVec.ofNat 64 addr

instance : SocketAddr (Fin 16) where
  fromStr s := (Quickplay.parseUnsigned 15 s).map (Fin.ofNat 16)

/-- A client. -/
def aClient : Fin 16 := 7

/-- Another client. -/
def anotherClient : Fin 16 := 3

/-- A schema with one map. -/
def schemaFile : List UInt8 :=
  asBytes "\x7b\"schema\":\x7b\"map_gamemodes\":\x7b\"pl_upward\":\"payload\"\x7d\x7d\x7d"

/-- A list with one server. -/
def serverListFile : List UInt8 :=
  asBytes ("[\x7b\"addr\":\"9\",\"players\":10,\"max_players\":24,\"map\":\"pl_upward\"," ++
    "\"gametype\":[],\"score\":2,\"ping\":0\x7d]")

/-- A parser for these two files. -/
instance : SerdeJson ℚ where
  schema data :=
    if data = schemaFile then
      some fun map => if map = "pl_upward" then some "payload" else none
    else none
  serverInfos data :=
    if data = serverListFile then
      some [{ addr := "9", players := 10, maxPlayers := 24, map := "pl_upward", gametype := [],
              score := 2, ping := 0 }]
    else none

/-- A round that can read both files. -/
def readable : Refresh where
  forSchema _ := some schemaFile
  forServerInfo _ := some serverListFile

/-- A socket that sends everything. -/
def openSocket : UdpSocket (Fin 16) where
  accepts _ _ := true

end Service

end QuickplayServer
