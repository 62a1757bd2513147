import QuickplayServer.Service

/-!
# QuickplayServer.Admission

Who gets a connection, and what the others get.

The connections of a run are those of the connects that were accepted in it, in
order.  An address that has not said back its challenge, which only a reply to
it tells, has no connection and is sent little more than it sends; so nobody
can have packets sent to somebody else's address in great numbers.
-/

namespace QuickplayServer

namespace Server

variable {Addr Session : Type}

/-- The addresses of the connections, in the order in which they were created. -/
def clients (self : Server Addr Session) : List Addr :=
  self.spawned.map (·.connection.clientAddr)

/-- The client of a task is its address. -/
theorem getElem?_clients (self : Server Addr Session) (index : Nat) :
    self.clients[index]? = self.addrAt index := by
  rw [clients, List.getElem?_map]
  rfl

/-- Going on creates no connection. -/
theorem Advances.clients {self self' : Server Addr Session} (h : self.Advances self') :
    self'.clients = self.clients := by
  refine List.ext_getElem? fun index => ?_
  rw [getElem?_clients, getElem?_clients, h.addrAt]

variable [DecidableEq Addr] [QuickplaySession Session] [BitstreamIo] [Crc]

/-- A connect that is accepted creates one connection, behind the others. -/
theorem clients_connect {self self' : Server Addr Session} {source : Addr} {challenge : BitVec 32}
    (hstep : self.step (.connect source challenge) = some self') :
    self'.clients = self.clients ++ [source] := by
  obtain ⟨-, -, -, task, hspawned, rfl, -⟩ := step_connect hstep
  rw [clients, hspawned, List.map_append]
  rfl

/-- No step of the server changes its configuration. -/
theorem step_configuration {self self' : Server Addr Session} {event : Event Addr}
    (hstep : self.step event = some self') : self'.configuration = self.configuration := by
  cases event with
  | connect source challenge =>
      simp only [step] at hstep
      split at hstep
      · obtain rfl := Option.some.inj hstep
        rfl
      · cases hstep
  | insert =>
      simp only [step] at hstep
      split at hstep
      · split at hstep
        · obtain rfl := Option.some.inj hstep
          rfl
        · cases hstep
      · cases hstep
  | packet source data =>
      simp only [step] at hstep
      split at hstep
      · split at hstep <;> obtain rfl := Option.some.inj hstep <;> rfl
      · cases hstep
  | work index foundServer => rw [(onTask_eq_some.mp hstep).2]
  | timeout index => rw [(onTask_eq_some.mp hstep).2]
  | cancelled index => rw [(onTask_eq_some.mp hstep).2]
  | remove index =>
      simp only [step] at hstep
      split at hstep
      · split at hstep
        · obtain rfl := Option.some.inj hstep
          rfl
        · cases hstep
      · cases hstep

end Server

namespace Service

open Connectionless

variable {Addr F SnapError : Type}

section

variable [DecidableEq Addr] [ToString Addr] [AddressHasher Addr] [SocketAddr Addr] [F32 F]
variable [SerdeJson F] [Snap SnapError] [BitstreamIo] [Crc]

/-! ## Who is let in -/

/-- No step of the service changes the configuration. -/
theorem Steps.configuration {self self' : Service Addr F} {input : Input Addr}
    (h : Steps self input self') :
    self'.server.configuration = self.server.configuration := by
  obtain ⟨-, heq⟩ | ⟨-, event, -, hevent⟩ | ⟨source, -, hevent⟩ := h.event
  · rw [heq]
  · exact Server.step_configuration hevent
  · exact Server.step_configuration hevent

/-- A step of the service creates a connection exactly for the address that it lets
in. -/
theorem Steps.clients {self self' : Service Addr F} {input : Input Addr}
    (h : Steps self input self') :
    self'.server.clients =
      self.server.clients ++ (admitted self.server.configuration input).toList := by
  obtain ⟨hnone, heq⟩ | ⟨hnone, event, hconnect, hevent⟩ | ⟨source, hsource, hevent⟩ := h.event
  · rw [hnone, heq, Option.toList_none, List.append_nil]
  · rw [hnone, (Server.advances_step hevent hconnect).clients, Option.toList_none, List.append_nil]
  · rw [hsource, Server.clients_connect hevent, Option.toList_some]

/-- The clients of a run are the addresses that it lets in, in order. -/
theorem run_clients {configuration : Configuration} {inputs : List (Input Addr)}
    {self : Service Addr F} (hrun : Run.run step (new configuration) inputs = some self) :
    self.server.configuration = configuration ∧
      self.server.clients = inputs.filterMap (admitted configuration) := by
  refine Run.history_induction (I := fun inputs (self : Service Addr F) =>
    self.server.configuration = configuration ∧
      self.server.clients = inputs.filterMap (admitted configuration)) ?_ ⟨rfl, rfl⟩ hrun
  rintro inputs self input self' - ⟨hconfiguration, hclients⟩ hstep
  have hsteps := step_cases hstep
  refine ⟨hsteps.configuration.trans hconfiguration, ?_⟩
  rw [hsteps.clients, hclients, hconfiguration, List.filterMap_append]
  cases h : admitted configuration input <;> simp [h]

/-! ## How much the others are sent -/

/-- A connectionless packet. -/
def packetOf (body : List UInt8) : List UInt8 := BitList.leBytes 4 CONNECTIONLESS_HEADER ++ body

/-- A request for a challenge. -/
def hello (clientChallenge : BitVec 32) : List UInt8 :=
  packetOf (BitList.leBytes 1 A2S_GETCHALLENGE ++ u32Bytes clientChallenge)

/-- A connect with the challenge that was told. -/
def connect (told clientChallenge : BitVec 32) : List UInt8 :=
  packetOf (ConnectRequest.valid told clientChallenge).bytes

/-- The challenge that a challenge reply tells. -/
def told (reply : List UInt8) : Option (BitVec 32) := (takeU32 (reply.drop 9)).map (·.1)

omit [Snap SnapError] in
omit [BitstreamIo] [Crc] in
/-- A connectionless packet has four bytes of header and its body. -/
theorem length_packetOf (body : List UInt8) : (packetOf body).length = 4 + body.length := by
  simp [packetOf]

omit [BitstreamIo] [Crc] in
/-- A small connectionless packet is received as it was sent. -/
theorem received_packetOf {body : List UInt8} (h : body.length ≤ 100) :
    received (packetOf body) = .ok (.connectionless (packetOf body)) := by
  have hshort : (packetOf body).length ≤ MAX_DATAGRAM := by
    rw [length_packetOf, MAX_DATAGRAM]
    omega
  rw [received, List.take_of_length_le hshort, packetOf, decodeRawPacket_leBytes (by decide),
    if_neg (by decide), if_neg (by decide), decodeInner_leBytes (by decide), if_pos rfl]

omit [Snap SnapError] in
omit [BitstreamIo] [Crc] in
/-- A client is told the challenge that the reply was made with. -/
theorem told_challengeReply (serverChallenge clientChallenge : BitVec 32) :
    told (challengeReply serverChallenge clientChallenge) = some serverChallenge := by
  have hdrop : (challengeReply serverChallenge clientChallenge).drop 9 = u32Bytes serverChallenge ++
      (u32Bytes clientChallenge ++ BitList.leBytes 4 AUTH_PROTOCOL_HASHEDCDKEY) := by
    rw [challengeReply, List.append_assoc, List.append_assoc]
    refine List.drop_left' ?_
    simp [length_replyHeader]
  rw [told, hdrop, takeU32_u32Bytes, Option.map_some]

/-- A request for a challenge is answered with the one of its source, and changes
nothing else. -/
theorem step_hello {self : Service Addr F} (hready : self.server.inserting = none)
    {socket : UdpSocket Addr} (hsocket : ∀ target data, socket.accepts target data) (a : Addr)
    (clientChallenge : BitVec 32) :
    self.step (.receive socket a (hello clientChallenge)) = some { self with
      sent := self.sent ++ [(a, challengeReply (getChallengeForAddress a) clientChallenge)] } := by
  have hreceived : received (hello clientChallenge) =
      .ok (.connectionless (hello clientChallenge)) := received_packetOf (by simp)
  have hrespond : respond (getChallengeForAddress a) self.server.configuration
      (hello clientChallenge) =
      { reply := some (challengeReply (getChallengeForAddress a) clientChallenge)
        result := .ok none } := by
    rw [hello, packetOf, respond_command (BitList.length_leBytes 4 _) _ _ (by decide)]
    have hanswer : answerTo (getChallengeForAddress a) self.server.configuration A2S_GETCHALLENGE =
        challengeAnswer (getChallengeForAddress a) := rfl
    have htake : takeU32 (u32Bytes clientChallenge) = some (clientChallenge, []) := by
      rw [← List.append_nil (u32Bytes clientChallenge), takeU32_u32Bytes]
    rw [hanswer, challengeAnswer, htake]
  have hprocess : processConnectionlessPacket socket a (hello clientChallenge)
      self.server.configuration self.sent = (.ok none, self.sent ++
        [(a, challengeReply (getChallengeForAddress a) clientChallenge)]) := by
    rw [processConnectionlessPacket_eq, hrespond, deliver_reply, sendTo_bind, if_pos (hsocket _ _)]
    rfl
  unfold received at hreceived
  simp only [step, hready, Option.isNone_none, if_true, handlePacket, hreceived, hprocess]

/-- A connect that says back the challenge of its source is answered, and creates a
connection. -/
theorem step_connect {self : Service Addr F} (hready : self.server.inserting = none)
    {socket : UdpSocket Addr} (hsocket : ∀ target data, socket.accepts target data) (a : Addr)
    (clientChallenge : BitVec 32) :
    ∃ self', self.step (.receive socket a (connect (getChallengeForAddress a) clientChallenge)) =
        some self' ∧
      self.server.step (.connect a (getChallengeForAddress a)) = some self'.server ∧
      self'.sent = self.sent ++ [(a, connectionReply clientChallenge)] := by
  have hreceived : received (connect (getChallengeForAddress a) clientChallenge) =
      .ok (.connectionless (connect (getChallengeForAddress a) clientChallenge)) :=
    received_packetOf (by rw [ConnectRequest.length_bytes]; omega)
  have hprocess : processConnectionlessPacket socket a
      (connect (getChallengeForAddress a) clientChallenge) self.server.configuration self.sent =
      (.ok (some (getChallengeForAddress a)),
        self.sent ++ [(a, connectionReply clientChallenge)]) :=
    processConnectionlessPacket_eq_ok_some_iff.mpr ⟨rfl, _, clientChallenge, [],
      BitList.length_leBytes 4 _, by rw [List.append_nil]; rfl, hsocket _ _, rfl⟩
  have hserver :
      ∃ server, self.server.step (.connect a (getChallengeForAddress a)) = some server := by
    rw [Server.step, if_pos (by rw [hready]; rfl)]
    exact ⟨_, rfl⟩
  obtain ⟨server, hserver⟩ := hserver
  unfold received at hreceived
  refine ⟨{ self with
    server, sent := self.sent ++ [(a, connectionReply clientChallenge)] }, ?_, hserver, rfl⟩
  simp only [step, hready, Option.isNone_none, if_true, handlePacket, hreceived, hprocess, hserver]
  rfl

/-- Only the insert itself ends an insert that is pending. -/
theorem Steps.inserting {self self' : Service Addr F} {input : Input Addr}
    (h : Steps self input self') (hinput : input ≠ .task .insert) {index : Nat}
    (hinserting : self.server.inserting = some index) :
    self'.server.inserting = some index := by
  have hpending : self.server.inserting ≠ none := by simp [hinserting]
  cases h with
  | accept hdecode hprocess hserver =>
      exact absurd (Server.step_connections hserver).1 hpending
  | answer hdecode hprocess houtcome hready => exact absurd hready hpending
  | regular hdecode hserver => exact (Server.step_connections hserver).2.trans hinserting
  | drop hdecode hready => exact absurd hready hpending
  | work hindex hworking hsent => exact hinserting
  | @task step server hserver =>
      cases step with
      | insert => exact absurd rfl hinput
      | timeout index => exact (Server.step_connections hserver).2.trans hinserting
      | cancelled index => exact (Server.step_connections hserver).2.trans hinserting
      | remove index =>
          obtain ⟨_, -, -, hsame⟩ := Server.step_connections hserver
          exact hsame.trans hinserting
  | refresh refresh => exact hinserting

/-- Until then it is for the same client. -/
theorem run_inserting {self self' : Service Addr F} {inputs : List (Input Addr)}
    (hrun : Run.run step self inputs = some self') (hinputs : .task .insert ∉ inputs)
    {index : Nat} {a : Addr} (hinserting : self.server.inserting = some index)
    (haddr : self.server.addrAt index = some a) :
    self'.server.inserting = some index ∧ self'.server.addrAt index = some a := by
  have hothers : ∀ input ∈ inputs, input ≠ .task .insert :=
    fun _ hinput => ne_of_mem_of_not_mem hinput hinputs
  refine Run.induction_of (I := fun later : Service Addr F =>
    later.server.inserting = some index ∧ later.server.addrAt index = some a)
    ?_ ⟨hinserting, haddr⟩ hothers hrun
  rintro self input self' ⟨hinserting, haddr⟩ hinput hstep
  have hsteps := step_cases hstep
  refine ⟨hsteps.inserting hinput hinserting, ?_⟩
  rw [← Server.getElem?_clients] at haddr ⊢
  obtain ⟨hlt, -⟩ := List.getElem?_eq_some_iff.mp haddr
  rw [hsteps.clients, List.getElem?_append_left hlt]
  exact haddr

/-- A client that says back what it was told gets a connection, whatever has
happened in between; and once that is inserted, whatever happens before, packets
from its address are for it. -/
theorem run_handshake {self : Service Addr F} (hready : self.server.inserting = none)
    {socket : UdpSocket Addr} (hsocket : ∀ target data, socket.accepts target data) (a : Addr)
    (clientChallenge : BitVec 32) :
    ∃ reply challenge asked, self.step (.receive socket a (hello clientChallenge)) = some asked ∧
      asked.sent = self.sent ++ [(a, reply)] ∧ told reply = some challenge ∧
      ∀ later : Service Addr F, later.server.inserting = none →
        ∃ connected, later.step (.receive socket a (connect challenge clientChallenge)) =
            some connected ∧
          connected.sent = later.sent ++ [(a, connectionReply clientChallenge)] ∧
          connected.server = { later.server with
            spawned := later.server.spawned ++ [{
              connection := Connection.new a (NetChannel.new challenge later.server.configuration)
                later.server.configuration
              working := true
              removal := .waiting }]
            inserting := some later.server.spawned.length } ∧
          ∀ inputs pending, Run.run step connected inputs = some pending →
            .task .insert ∉ inputs → pending.step (.task .insert) = some { pending with
              server := { pending.server with
                connections :=
                  Function.update pending.server.connections a (some later.server.spawned.length)
                inserting := none } } := by
  refine ⟨_, getChallengeForAddress a, _, step_hello hready hsocket a clientChallenge, rfl,
    told_challengeReply _ _, fun later hlater => ?_⟩
  obtain ⟨connected, hconnect, hserver, hsent⟩ := step_connect hlater hsocket a clientChallenge
  have haddr := (Server.addrAt_connect hserver later.server.spawned.length).trans (if_pos rfl)
  rw [Server.step, if_pos (by rw [hlater]; rfl), Option.some.injEq] at hserver
  refine ⟨connected, hconnect, hsent, hserver.symm, fun inputs pending hrun hinputs => ?_⟩
  obtain ⟨hinserting, hpending⟩ := run_inserting hrun hinputs (by rw [← hserver]) haddr
  obtain ⟨task, hindex, rfl⟩ := Option.map_eq_some_iff.mp hpending
  rw [step, TaskStep.event]
  simp only [Server.step, hinserting, hindex]
  rfl

end

/-- The server list is refreshed before the client comes back, and its worker
runs before its connection is inserted. -/
theorem run_handshake_fresh : ∃ (reply : List UInt8) (challenge : BitVec 32)
    (asked later connected pending : Service (Fin 16) ℚ),
    step (new .loadDefault) (.receive openSocket aClient (hello 5)) = some asked ∧
      asked.sent = [(aClient, reply)] ∧ told reply = some challenge ∧
      Run.run step asked [.refresh readable] = some later ∧
      later.step (.receive openSocket aClient (connect challenge 5)) = some connected ∧
      Run.run step connected [.work openSocket 0 fun _ => 0] = some pending ∧
      (pending.step (.task .insert)).map (·.server.connections aClient) = some (some 0) := by
  have hready : (new .loadDefault : Service (Fin 16) ℚ).server.inserting = none := rfl
  have hsocket : ∀ target data, openSocket.accepts target data := fun _ _ => rfl
  obtain ⟨reply, challenge, asked, hstep, hsent, htold, hlater⟩ :=
    run_handshake hready hsocket aClient 5
  obtain ⟨later, hrefresh, hsame⟩ : ∃ later, Run.run step asked [.refresh readable] = some later ∧
      later.server = asked.server := ⟨_, rfl, rfl⟩
  have hasked : asked.server = (new .loadDefault : Service (Fin 16) ℚ).server := by
    obtain rfl := Option.some.inj ((step_hello hready hsocket aClient 5).symm.trans hstep)
    rfl
  have hserver := hsame.trans hasked
  obtain ⟨connected, hconnect, -, hconnected, hinsert⟩ := hlater later (by rw [hserver]; rfl)
  obtain ⟨pending, hwork⟩ :
      ∃ pending, connected.step (.work openSocket 0 fun _ => 0) = some pending := by
    rw [hserver] at hconnected
    simp only [step, hconnected]
    exact ⟨_, rfl⟩
  have hworks : Run.run step connected [.work openSocket 0 fun _ => 0] = some pending :=
    Run.run_cons_eq_some.mpr ⟨pending, hwork, rfl⟩
  refine ⟨reply, challenge, asked, later, connected, pending, hstep, hsent, htold, hrefresh,
    hconnect, hworks, ?_⟩
  rw [hinsert _ _ hworks (by simp), Option.map_some, hserver]
  rfl

end Service

end QuickplayServer
