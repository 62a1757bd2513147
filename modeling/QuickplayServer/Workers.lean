import QuickplayServer.Admission
import QuickplayServer.Replies

/-!
# QuickplayServer.Workers

The workers of the service, each by itself.

The tasks share the map, the server lists and the socket, and take their steps
in any order.  Still a connection only ever sees what its own client has sent
since it was let in, in the order of its arrival; so what is known of a run of
one connection holds of every connection of the service.
-/

namespace QuickplayServer

/-! ## What other tasks do to a connection -/

/-- The tasks around a connection may cancel it or end, and do nothing else to it. -/
structure Spawned.Keeps {Addr Session : Type} (before later : Spawned Addr Session) : Prop where
  aside : before.connection.Aside later.connection
  same : before.connection.Same later.connection
  working : later.working = true → before.working = true

namespace Server

variable {Addr Session : Type}

theorem keeps_modify {spawned : List (Spawned Addr Session)} {index i : Nat}
    {f : Spawned Addr Session → Spawned Addr Session} (hf : ∀ task, Spawned.Keeps task (f task))
    {task' : Spawned Addr Session} (h : (spawned.modify index f)[i]? = some task') :
    ∃ task, spawned[i]? = some task ∧ Spawned.Keeps task task' := by
  rw [List.getElem?_modify] at h
  obtain ⟨task, htask, heq⟩ := Option.map_eq_some_iff.mp h
  refine ⟨task, htask, heq ▸ ?_⟩
  split
  · exact hf task
  · exact ⟨⟨rfl, rfl⟩, ⟨rfl, rfl⟩, id⟩

variable [DecidableEq Addr] [QuickplaySession Session] [BitstreamIo] [Crc]

theorem step_task {self self' : Server Addr Session} {step : TaskStep}
    (hstep : self.step step.event = some self') {index : Nat} {task' : Spawned Addr Session}
    (h : self'.spawned[index]? = some task') :
    ∃ task, self.spawned[index]? = some task ∧ Spawned.Keeps task task' := by
  cases step with
  | insert =>
      simp only [TaskStep.event, Server.step] at hstep
      split at hstep
      · split at hstep
        · obtain rfl := Option.some.inj hstep
          exact ⟨task', h, ⟨⟨rfl, rfl⟩, ⟨rfl, rfl⟩, id⟩⟩
        · cases hstep
      · cases hstep
  | timeout i =>
      obtain ⟨-, rfl⟩ := onTask_eq_some.mp hstep
      refine keeps_modify ?_ h
      exact fun task => ⟨⟨rfl, rfl⟩, ⟨rfl, rfl⟩, id⟩
  | cancelled i =>
      obtain ⟨-, rfl⟩ := onTask_eq_some.mp hstep
      refine keeps_modify ?_ h
      exact fun task => ⟨⟨rfl, rfl⟩, ⟨rfl, rfl⟩, id⟩
  | remove i =>
      simp only [TaskStep.event, Server.step] at hstep
      split at hstep
      · split at hstep
        · obtain rfl := Option.some.inj hstep
          refine keeps_modify ?_ h
          exact fun task => ⟨⟨rfl, rfl⟩, ⟨rfl, rfl⟩, id⟩
        · cases hstep
      · cases hstep

/-- A packet reaches the connection that the map has for its address. -/
theorem step_packet {self self' : Server Addr Session} {source : Addr} {data : List UInt8}
    (hstep : self.step (.packet source data) = some self') {index : Nat}
    {task' : Spawned Addr Session} (h : self'.spawned[index]? = some task') :
    self.spawned[index]? = some task' ∨
      self.connections source = some index ∧ ∃ task, self.spawned[index]? = some task ∧
        task' = task.send data := by
  simp only [step] at hstep
  split at hstep
  case isFalse => cases hstep
  case isTrue =>
    split at hstep
    case h_2 =>
      obtain rfl := Option.some.inj hstep
      exact .inl h
    case h_1 i hentry =>
      obtain rfl := Option.some.inj hstep
      rw [List.getElem?_modify] at h
      obtain ⟨task, htask, rfl⟩ := Option.map_eq_some_iff.mp h
      by_cases hi : i = index
      · subst hi
        exact .inr ⟨hentry, task, htask, if_pos rfl⟩
      · left
        rw [htask, if_neg hi]

end Server

namespace Service

open Connectionless (getChallengeForAddress)
open Connection (Same after packets rounds Survives)

variable {Addr F SnapError : Type}

section

variable [DecidableEq Addr] [ToString Addr] [AddressHasher Addr] [SocketAddr Addr] [F32 F]
variable [SerdeJson F] [Snap SnapError] [BitstreamIo] [Crc]

/-! ## A connection's own run -/

/-- The packet for a channel that the address sends. -/
def channelPacket (a : Addr) : Input Addr → Option (List UInt8)
  | .receive _ source datagram =>
      match received datagram with
      | .ok (.regular data) => if source = a then some data else none
      | _ => none
  | _ => none

/-- The connection of an address as it is created. -/
def start (configuration : Configuration) (a : Addr) : QuickplayConnection Addr :=
  Connection.created configuration a (getChallengeForAddress a)

/-- The connection at `index` has gone through `events` by itself: it was
created for its client's connect, it handles what its client sends from then on
in the order of arrival, and it asks for servers in the lists. -/
structure Lives (configuration : Configuration) (serverLists : List (List (ServerInfo Addr F)))
    (inputs : List (Input Addr)) (index : Nat) (connection : QuickplayConnection Addr)
    (events : List Connection.Event) : Prop where
  survives : Survives events (start configuration connection.clientAddr)
  same : Same (after events (start configuration connection.clientAddr)) connection
  packets : ∃ before input later, inputs = before ++ input :: later ∧
    admitted configuration input = some connection.clientAddr ∧
    (before.filterMap (admitted configuration)).length = index ∧
    (packets events ++ connection.packetReceiver).Sublist
      (later.filterMap (channelPacket connection.clientAddr))
  asked : ∀ round ∈ rounds events (start configuration connection.clientAddr),
    ∃ serverList ∈ serverLists, round.AsksOn serverList

omit [SocketAddr Addr] [SerdeJson F] in
/-- A step that gives the connection nothing but a packet of its client's. -/
theorem Lives.next {configuration : Configuration}
    {serverLists serverLists' : List (List (ServerInfo Addr F))} {inputs : List (Input Addr)}
    {index : Nat} {connection connection' : QuickplayConnection Addr}
    {events : List Connection.Event}
    (h : Lives configuration serverLists inputs index connection events)
    {input : Input Addr} {arrived : List (List UInt8)}
    (haddr : connection'.clientAddr = connection.clientAddr) (hsame : Same connection connection')
    (hlists : serverLists ⊆ serverLists')
    (hreceiver : connection'.packetReceiver = connection.packetReceiver ++ arrived)
    (harrived : arrived.Sublist (channelPacket connection.clientAddr input).toList) :
    Lives configuration serverLists' (inputs ++ [input]) index connection' events where
  survives := haddr ▸ h.survives
  same := by
    rw [haddr]
    exact ⟨hsame.netchan.trans h.same.netchan, hsame.quickplay.trans h.same.quickplay⟩
  packets := by
    obtain ⟨before, connect, later, rfl, hconnect, hindex, hsublist⟩ := h.packets
    refine ⟨before, connect, later ++ [input], by simp, haddr ▸ hconnect, hindex, ?_⟩
    have hfilter : [input].filterMap (channelPacket connection.clientAddr) =
        (channelPacket connection.clientAddr input).toList := by
      cases hinput : channelPacket connection.clientAddr input <;> simp [hinput]
    rw [haddr, hreceiver, ← List.append_assoc, List.filterMap_append, hfilter]
    exact hsublist.append harrived
  asked := by
    rw [haddr]
    intro round hround
    obtain ⟨serverList, hlist, hasks⟩ := h.asked round hround
    exact ⟨serverList, hlists hlist, hasks⟩

omit [SocketAddr Addr] [SerdeJson F] in
/-- A round of the worker. -/
theorem Lives.work {configuration : Configuration} {serverLists : List (List (ServerInfo Addr F))}
    {inputs : List (Input Addr)} {index : Nat} {connection connection' : QuickplayConnection Addr}
    {events : List Connection.Event}
    (h : Lives configuration serverLists inputs index connection events)
    {lists : Nat → List (ServerInfo Addr F)} (hlists : ∀ message, lists message ∈ serverLists)
    {outcome : Outcome Error (Option (List UInt8))}
    (hround : connection.backgroundWorkerRoundOn lists = (outcome, connection'))
    (hpanic : outcome ≠ .panic) (input : Input Addr) :
    ∃ events', Lives configuration serverLists (inputs ++ [input]) index connection' events' := by
  obtain ⟨more, hsurvives, hsame, hpackets, haddr, hasked⟩ :=
    Connection.backgroundWorkerRoundOn_lives lists h.same hround hpanic
  refine ⟨events ++ more, ?_, ?_, ?_, ?_⟩
  · rw [haddr]
    exact (Connection.survives_append h.survives).mpr hsurvives
  · rw [haddr, Connection.after_append h.survives]
    exact hsame
  · obtain ⟨before, connect, later, rfl, hconnect, hindex, hsublist⟩ := h.packets
    refine ⟨before, connect, later ++ [input], by simp, haddr ▸ hconnect, hindex, ?_⟩
    rw [haddr, Connection.packets, List.flatMap_append, List.append_assoc]
    rw [Connection.packets] at hpackets
    rw [hpackets, List.filterMap_append]
    exact hsublist.trans (List.sublist_append_left _ _)
  · rw [haddr, Connection.rounds_append h.survives]
    refine List.forall_mem_append.mpr ⟨h.asked, fun round hmem => ?_⟩
    obtain ⟨message, hasks⟩ := hasked round hmem
    exact ⟨lists message, hlists message, hasks⟩

/-- Every worker's connection has a run of its own. -/
def Alive (configuration : Configuration) (inputs : List (Input Addr)) (self : Service Addr F) :
    Prop :=
  ∀ (index : Nat) task, self.server.spawned[index]? = some task → task.working = true →
    ∃ events, Lives configuration self.serverLists inputs index task.connection events

omit [SocketAddr Addr] [SerdeJson F] in
theorem Alive.keeps {configuration : Configuration} {inputs : List (Input Addr)}
    {self self' : Service Addr F} (h : Alive configuration inputs self) (input : Input Addr)
    (hlists : self.serverLists ⊆ self'.serverLists)
    (hkeeps : ∀ (index : Nat) task', self'.server.spawned[index]? = some task' →
      ∃ task, self.server.spawned[index]? = some task ∧ Spawned.Keeps task task') :
    Alive configuration (inputs ++ [input]) self' := by
  intro index task' hindex hworking
  obtain ⟨task, htask, hkeep⟩ := hkeeps index task' hindex
  obtain ⟨events, hlives⟩ := h index task htask (hkeep.working hworking)
  refine ⟨events, hlives.next hkeep.aside.clientAddr hkeep.same hlists ?_ (List.nil_sublist _)⟩
  rw [List.append_nil]
  exact hkeep.aside.packetReceiver

omit [SocketAddr Addr] [SerdeJson F] in
/-- A new connection begins its run. -/
theorem Alive.connect {configuration : Configuration} {inputs : List (Input Addr)}
    {self : Service Addr F} (h : Alive configuration inputs self)
    (hconfiguration : self.server.configuration = configuration)
    (hclients : self.server.clients = inputs.filterMap (admitted configuration))
    {input : Input Addr} {source : Addr} (hinput : admitted configuration input = some source)
    {server : Server Addr Quickplay.QuickplaySession}
    (hserver : self.server.step (.connect source (getChallengeForAddress source)) = some server)
    (sent : Sent Addr) :
    Alive configuration (inputs ++ [input]) { self with server, sent } := by
  intro index task hindex hworking
  rw [Server.step] at hserver
  split at hserver
  case isFalse => cases hserver
  case isTrue =>
    obtain rfl := Option.some.inj hserver
    dsimp only at hindex
    rcases Nat.lt_trichotomy index self.server.spawned.length with hlt | rfl | hgt
    · rw [List.getElem?_append_left hlt] at hindex
      obtain ⟨events, hlives⟩ := h index task hindex hworking
      exact ⟨events, hlives.next rfl ⟨rfl, rfl⟩ (List.Subset.refl _) (List.append_nil _).symm
        (List.nil_sublist _)⟩
    · rw [List.getElem?_concat_length] at hindex
      obtain rfl := Option.some.inj hindex
      refine ⟨[], trivial, ⟨by rw [hconfiguration]; rfl, by rw [hconfiguration]; rfl⟩, ?_,
        by simp [rounds]⟩
      refine ⟨inputs, input, [], rfl, hinput, ?_, List.Sublist.refl _⟩
      rw [← hclients, Server.clients, List.length_map]
    · rw [List.getElem?_eq_none (by simp; omega)] at hindex
      cases hindex

omit [SocketAddr Addr] [SerdeJson F] in
/-- A packet reaches nobody but its sender's connection. -/
theorem Alive.packet {configuration : Configuration} {inputs : List (Input Addr)}
    {self : Service Addr F} (h : Alive configuration inputs self) (hfiled : self.server.Filed)
    {input : Input Addr} {source : Addr} {data : List UInt8}
    (hinput : channelPacket source input = some data)
    {server : Server Addr Quickplay.QuickplaySession}
    (hserver : self.server.step (.packet source data) = some server) :
    Alive configuration (inputs ++ [input]) { self with server } := by
  intro index task' hindex hworking
  obtain htask | ⟨hentry, task, htask, rfl⟩ := Server.step_packet hserver hindex
  · obtain ⟨events, hlives⟩ := h index task' htask hworking
    exact ⟨events, hlives.next rfl ⟨rfl, rfl⟩ (List.Subset.refl _) (List.append_nil _).symm
      (List.nil_sublist _)⟩
  · have haddr : task.connection.clientAddr = source := by
      have hsome := hfiled source index hentry
      rw [Server.addrAt, htask] at hsome
      exact Option.some.inj hsome
    unfold Spawned.send at hworking ⊢
    split at hworking
    case isFalse hstopped => exact absurd hworking hstopped
    case isTrue hrunning =>
      obtain ⟨events, hlives⟩ := h index task htask hrunning
      rw [if_pos hrunning]
      refine ⟨events, hlives.next rfl ⟨rfl, rfl⟩ (List.Subset.refl _) rfl ?_⟩
      rw [haddr, hinput]
      exact List.Sublist.refl _

omit [SocketAddr Addr] [SerdeJson F] in
/-- A round of a worker touches no other connection. -/
theorem Alive.work {configuration : Configuration} {inputs : List (Input Addr)}
    {self : Service Addr F} (h : Alive configuration inputs self) (hempty : [] ∈ self.serverLists)
    {index : Nat} {task : Spawned Addr Quickplay.QuickplaySession}
    (hindex : self.server.spawned[index]? = some task) (hworking : task.working = true)
    (inForce : Nat → Nat) (input : Input Addr) (sent : Sent Addr) :
    Alive configuration (inputs ++ [input]) { self with
      server := { self.server with
        spawned := self.server.spawned.set index
          (task.workOn fun message => self.serverLists.getD (inForce message) []).1 }
      sent } := by
  intro i task' hi hworking'
  have hlists : ∀ message, self.serverLists.getD (inForce message) [] ∈ self.serverLists := by
    intro message
    rw [List.getD_eq_getElem?_getD]
    cases hget : self.serverLists[inForce message]? with
    | none => exact hempty
    | some serverList => exact List.mem_of_getElem? hget
  dsimp only at hi
  rw [List.getElem?_set] at hi
  split at hi
  case isFalse =>
    obtain ⟨events, hlives⟩ := h i task' hi hworking'
    exact ⟨events, hlives.next rfl ⟨rfl, rfl⟩ (List.Subset.refl _) (List.append_nil _).symm
      (List.nil_sublist _)⟩
  case isTrue heq =>
    subst heq
    split at hi
    case isFalse => cases hi
    case isTrue =>
      obtain rfl := Option.some.inj hi
      obtain ⟨events, hlives⟩ := h index task hindex hworking
      unfold Spawned.workOn at hworking' ⊢
      split at hworking'
      case isTrue => cases hworking'
      case isFalse hcancel =>
        rw [if_neg hcancel]
        cases hround : task.connection.backgroundWorkerRoundOn fun message =>
            self.serverLists.getD (inForce message) [] with
        | mk outcome connection =>
            rw [hround] at hworking'
            cases outcome with
            | ok data => exact hlives.work hlists hround (by simp) input
            | err e => exact hlives.work hlists hround (by simp) input
            | panic => cases hworking'

theorem Steps.filed {self self' : Service Addr F} {input : Input Addr}
    (h : Steps self input self') (hfiled : self.server.Filed) : self'.server.Filed := by
  obtain ⟨-, heq⟩ | ⟨-, event, -, hevent⟩ | ⟨source, -, hevent⟩ := h.event
  · exact heq ▸ hfiled
  · exact Server.filed_step hfiled hevent
  · exact Server.filed_step hfiled hevent

/-- Every connection whose worker has not stopped is that of a run of its own,
on what its client has sent since it was let in. -/
theorem run_alive {configuration : Configuration} {inputs : List (Input Addr)}
    {self : Service Addr F} (hrun : Run.run step (new configuration) inputs = some self) :
    Alive configuration inputs self := by
  refine (Run.history_induction (I := fun inputs (self : Service Addr F) =>
    Alive configuration inputs self ∧ self.server.Filed ∧ [] ∈ self.serverLists)
    ?_ ⟨fun index task h => ?_, fun a index h => ?_, List.mem_singleton.mpr rfl⟩ hrun).1
  rotate_left
  · simp [new, Server.new] at h
  · simp [new, Server.new] at h
  rintro inputs self input self' hrun ⟨halive, hfiled, hempty⟩ hstep
  obtain ⟨hconfiguration, hclients⟩ := run_clients hrun
  have hsteps := step_cases hstep
  have hfiled' := hsteps.filed hfiled
  have hsame : ∀ (index : Nat) task', self.server.spawned[index]? = some task' →
      ∃ task, self.server.spawned[index]? = some task ∧ Spawned.Keeps task task' :=
    fun index task h => ⟨task, h, ⟨rfl, rfl⟩, ⟨rfl, rfl⟩, id⟩
  cases hsteps with
  | @accept socket source datagram data challenge server sent hdecode hprocess hserver =>
      obtain ⟨rfl, header, clientChallenge, rest, hheader, rfl, haccepts, -⟩ :=
        Connectionless.processConnectionlessPacket_eq_ok_some_iff.mp hprocess
      have hadmitted : admitted configuration (.receive socket source datagram) = some source :=
        admitted_eq_some_iff.mpr
          ⟨socket, datagram, header, clientChallenge, rest, rfl, hdecode, hheader, haccepts⟩
      exact ⟨halive.connect hconfiguration hclients hadmitted hserver sent, hfiled', hempty⟩
  | answer => exact ⟨halive.keeps _ (List.Subset.refl _) hsame, hfiled', hempty⟩
  | @regular socket source datagram data server hdecode hserver =>
      have hpacket : channelPacket source (.receive socket source datagram) = some data := by
        simp only [channelPacket, hdecode, if_pos]
      exact ⟨halive.packet hfiled hpacket hserver, hfiled', hempty⟩
  | drop => exact ⟨halive.keeps _ (List.Subset.refl _) hsame, hfiled', hempty⟩
  | work hindex hworking hsent =>
      exact ⟨halive.work hempty hindex hworking _ _ _, hfiled', hempty⟩
  | task hserver =>
      exact ⟨halive.keeps _ (List.Subset.refl _)
        fun index task' => Server.step_task hserver, hfiled',
        hempty⟩
  | refresh =>
      exact ⟨halive.keeps _ (List.subset_cons_self _ _) hsame, hfiled',
        List.mem_cons_of_mem _ hempty⟩

/-! ## What is known of every worker -/

/-- The connections of a run are those of the connects in it that said back the
challenge of their address, in order, and have that challenge on their channels. -/
theorem run_admitted {configuration : Configuration} {inputs : List (Input Addr)}
    {self : Service Addr F} (hrun : Run.run step (new configuration) inputs = some self) :
    self.server.clients = inputs.filterMap (admitted configuration) ∧
      (∀ (input : Input Addr) (a : Addr), admitted configuration input = some a ↔
        ∃ socket datagram header clientChallenge rest, input = .receive socket a datagram ∧
          received datagram = .ok (.connectionless (header ++
            ((Connectionless.ConnectRequest.valid (getChallengeForAddress a)
              clientChallenge).bytes ++ rest))) ∧
          header.length = 4 ∧
          socket.accepts a (Connectionless.connectionReply clientChallenge)) ∧
      ∀ (index : Nat) task, self.server.spawned[index]? = some task → task.working = true →
        task.connection.netchan.challenge =
          getChallengeForAddress task.connection.clientAddr := by
  refine ⟨(run_clients hrun).2, fun input a => admitted_eq_some_iff, ?_⟩
  intro index task hindex hworking
  obtain ⟨events, hlives⟩ := run_alive hrun index task hindex hworking
  rw [hlives.same.netchan]
  exact Connection.run_challenge (Connection.run_calls hlives.survives)

/-- A worker's connection is that of a run of its own, on what its client has
sent since it was let in.  It has met well-formed messages only, and each of
its preferences is what the last accepted convar for it in them said. -/
theorem run_workers {configuration : Configuration} {inputs : List (Input Addr)}
    {self : Service Addr F} (hrun : Run.run step (new configuration) inputs = some self)
    {index : Nat} {task : Spawned Addr Quickplay.QuickplaySession}
    (hindex : self.server.spawned[index]? = some task) (hworking : task.working = true) :
    ∃ events, Lives configuration self.serverLists inputs index task.connection events ∧
      (∀ round ∈ rounds events (start configuration task.connection.clientAddr),
        round.message.WellFormed) ∧
      ∀ slot : Quickplay.Slot,
        let session := Quickplay.QuickplaySession.new configuration
        let convars := (rounds events (start configuration task.connection.clientAddr)).flatMap
          fun round => session.accepted round.message
        (∀ before convar later, convars = before ++ convar :: later →
          session.Targets slot convar → (∀ c ∈ later, ¬ session.Targets slot c) →
          slot.decode convar.2 = .ok (task.connection.quickplay.preferences.get slot)) ∧
        ((∀ convar ∈ convars, ¬ session.Targets slot convar) →
          task.connection.quickplay.preferences.get slot =
            Quickplay.QuickplayPreferences.default.get slot) := by
  obtain ⟨events, hlives⟩ := run_alive hrun index task hindex hworking
  refine ⟨events, hlives, Connection.rounds_wellFormed _ _, fun slot => ?_⟩
  have hscript := Connection.after_execute events task.connection.clientAddr
    (NetChannel.new (getChallengeForAddress task.connection.clientAddr) configuration)
    configuration
  have hquickplay := hlives.same.quickplay
  rw [start, Connection.created] at hquickplay
  dsimp only at hscript
  rw [← hquickplay, List.flatMap_map] at hscript
  exact Quickplay.QuickplaySession.preference_of_execute hscript slot

/-- A worker that gets through its reading sends a packet, as long as it has a
sequence number left. -/
theorem run_round_sends {configuration : Configuration} {inputs : List (Input Addr)}
    {self : Service Addr F} (hrun : Run.run step (new configuration) inputs = some self)
    (hroomy : Connection.Roomy configuration)
    (haddr : ∀ addr : Addr, (asBytes (toString addr)).length ≤ 64) {index : Nat}
    {task : Spawned Addr Quickplay.QuickplaySession}
    (hindex : self.server.spawned[index]? = some task) (hworking : task.working = true)
    {lists : Nat → List (ServerInfo Addr F)} {read : QuickplayConnection Addr}
    (hread : task.connection.processIncomingPacketOn lists = (.ok (), read))
    (hnext : read.netchan.outSequenceNr + 1 < 2 ^ 32) :
    ∃ bytes connection,
      task.connection.backgroundWorkerRoundOn lists = (.ok (some bytes), connection) := by
  obtain ⟨events, hlives⟩ := run_alive hrun index task hindex hworking
  obtain ⟨-, more, hsurvives, hsame, -, -, hasked⟩ :=
    Connection.processIncomingPacketOn_lives lists hlives.same hread (by simp)
  have hall : ∀ round ∈ rounds (events ++ more) (start configuration task.connection.clientAddr),
      ∃ serverList : List (ServerInfo Addr F), round.AsksOn serverList := by
    rw [Connection.rounds_append hlives.survives]
    refine List.forall_mem_append.mpr ⟨fun round hmem => ?_, fun round hmem => ?_⟩
    · obtain ⟨serverList, -, hasks⟩ := hlives.asked round hmem
      exact ⟨serverList, hasks⟩
    · obtain ⟨message, hasks⟩ := hasked round hmem
      exact ⟨lists message, hasks⟩
  have hnetchan : (after (events ++ more)
      (start configuration task.connection.clientAddr)).netchan = read.netchan := by
    rw [Connection.after_append hlives.survives, hsame.netchan]
  obtain ⟨bytes, channel, hwrite⟩ := Connection.writePacket_after hroomy haddr
    ((Connection.survives_append hlives.survives).mpr hsurvives) hall hnetchan hnext
  refine ⟨bytes, { read with netchan := channel }, ?_⟩
  rw [Connection.backgroundWorkerRoundOn, Method.bind_apply, hread]
  dsimp only
  rw [Method.attempt, Connection.onNetchan, hwrite]

end

/-! ## A client that asks for a server -/

/-- Wants random crits, and then a server. -/
def askPacket : List UInt8 :=
  [1, 0, 0, 0, 0, 0, 0, 0, 32, 221, 252, 0, 7, 0, 0, 0, 69, 128, 92, 28, 220, 151, 92, 152, 27, 217,
    91, 219, 215, 152, 92, 26, 221, 28, 64, 12, 128, 33, 0, 0, 0, 0, 0]

def askingClient : List (Input (Fin 16)) :=
  [.refresh readable, .receive openSocket aClient (connect 7 5), .task .insert,
    .receive openSocket aClient askPacket, .work openSocket 0 fun _ => 0]

theorem exists_askingClient : ∃ (self : Service (Fin 16) ℚ) (task : _),
    Run.run step (new .loadDefault) askingClient = some self ∧
      self.server.spawned[0]? = some task ∧ task.working = true ∧
      task.connection.quickplay.preferences.randomCrits = .Enabled ∧
      task.connection.packetReceiver = [] ∧ task.connection.netchan.outSequenceNr = 2 := by
  have hrun : ((Run.run step (new .loadDefault : Service (Fin 16) ℚ) askingClient).bind
      (·.server.spawned[0]?)).map (fun task => (task.working,
        task.connection.quickplay.preferences.randomCrits, task.connection.packetReceiver,
        task.connection.netchan.outSequenceNr)) = some (true, .Enabled, [], 2) := by
    decide +kernel
  obtain ⟨task, htask, heq⟩ := Option.map_eq_some_iff.mp hrun
  obtain ⟨self, hself, hindex⟩ := Option.bind_eq_some_iff.mp htask
  simp only [Prod.mk.injEq] at heq
  exact ⟨self, task, hself, hindex, heq.1, heq.2.1, heq.2.2.1, heq.2.2.2⟩

theorem run_admitted_askingClient : ∃ self : Service (Fin 16) ℚ,
    Run.run step (new .loadDefault) askingClient = some self ∧
      self.server.clients = askingClient.filterMap (admitted .loadDefault) := by
  obtain ⟨self, task, hrun, -⟩ := exists_askingClient
  exact ⟨self, hrun, (run_admitted hrun).1⟩

theorem run_workers_askingClient : ∃ (self : Service (Fin 16) ℚ) (task : _) (events : _),
    Run.run step (new .loadDefault) askingClient = some self ∧
      self.server.spawned[0]? = some task ∧
      Lives .loadDefault self.serverLists askingClient 0 task.connection events := by
  obtain ⟨self, task, hrun, hindex, hworking, -⟩ := exists_askingClient
  obtain ⟨events, hlives, -⟩ := run_workers hrun hindex hworking
  exact ⟨self, task, events, hrun, hindex, hlives⟩

theorem run_round_sends_askingClient : ∃ (self : Service (Fin 16) ℚ) (task : _) (bytes : _),
    Run.run step (new .loadDefault) askingClient = some self ∧
      self.server.spawned[0]? = some task ∧
      (task.connection.backgroundWorkerRoundOn fun _ => ([] : List (ServerInfo (Fin 16) ℚ))).1 =
        .ok (some bytes) := by
  obtain ⟨self, task, hrun, hindex, hworking, -, hreceiver, hnr⟩ := exists_askingClient
  have hread : task.connection.processIncomingPacketOn
      (fun _ => ([] : List (ServerInfo (Fin 16) ℚ))) = (.ok (), task.connection) := by
    rw [Connection.processIncomingPacketOn, Method.get_bind, hreceiver]
    rfl
  obtain ⟨bytes, connection, hround⟩ := run_round_sends hrun (by decide) (by decide +kernel) hindex
    hworking hread (by rw [hnr]; decide)
  exact ⟨self, task, bytes, hrun, hindex, by rw [hround]⟩

end Service

end QuickplayServer
