import QuickplayServer.Lib.Selection
import QuickplayServer.Workers

/-!
# QuickplayServer.Isolation

What a client sees of the other clients: nothing.

Whatever they send, and however the tasks take turns, the connections of one
client are those of a server that nobody else talks to, and it is sent the same
packets.
-/

namespace QuickplayServer

/-- A packet that is put into the channel of a worker leaves the address of its
client. -/
theorem Spawned.send_clientAddr {Addr Session : Type} (data : List UInt8)
    (task : Spawned Addr Session) :
    (task.send data).connection.clientAddr = task.connection.clientAddr := by
  unfold Spawned.send
  split <;> rfl

/-! ## The map for one client -/

namespace Server

section

variable {Addr Session : Type} [DecidableEq Addr]

/-- The connection is one of this client's. -/
def isFor (a : Addr) (task : Spawned Addr Session) : Bool := task.connection.clientAddr = a

/-- The index of one of its connections among them. -/
def indexFor (a : Addr) (self : Server Addr Session) (index : Nat) : Option Nat :=
  if self.addrAt index = some a then some (Selection.rank (isFor a) self.spawned index) else none

/-- The server as it is for one client. -/
def only (a : Addr) (self : Server Addr Session) : Server Addr Session where
  connections b := if b = a then (self.connections a).bind (self.indexFor a) else none
  spawned := self.spawned.filter (isFor a)
  inserting := self.inserting.bind (self.indexFor a)
  configuration := self.configuration

variable {a : Addr} {self self' : Server Addr Session} {index r : Nat}

/-- A task is for an address exactly if its client has it. -/
theorem isFor_iff {task : Spawned Addr Session} :
    isFor a task = true ↔ task.connection.clientAddr = a := decide_eq_true_iff

/-- A task has a place among those for an address exactly if it is one of them; the
place is the number of those before it. -/
theorem indexFor_eq_some_iff :
    self.indexFor a index = some r ↔ ∃ task, self.spawned[index]? = some task ∧
      task.connection.clientAddr = a ∧ r = Selection.rank (isFor a) self.spawned index := by
  unfold indexFor addrAt
  cases self.spawned[index]? <;> simp [eq_comm]

/-- A task has no place exactly if it is for another address, or not there. -/
theorem indexFor_eq_none_iff : self.indexFor a index = none ↔ self.addrAt index ≠ some a := by
  simp [indexFor]

/-- A connection of the client is there for it. -/
theorem getElem?_only (h : self.indexFor a index = some r) :
    (self.only a).spawned[r]? = self.spawned[index]? := by
  obtain ⟨task, hindex, haddr, rfl⟩ := indexFor_eq_some_iff.mp h
  rw [hindex]
  exact Selection.getElem?_filter hindex (isFor_iff.mpr haddr)

section

variable {f : Spawned Addr Session → Spawned Addr Session}
variable (hf : ∀ task, (f task).connection.clientAddr = task.connection.clientAddr)
include hf

/-- An update that leaves the address of a task leaves who it is for. -/
theorem isFor_modify (task : Spawned Addr Session) : isFor a (f task) = isFor a task := by
  rw [isFor, isFor, hf]

/-- Such an update leaves the places of all tasks. -/
theorem indexFor_modify (hself' : self'.spawned = self.spawned.modify index f) :
    self'.indexFor a = self.indexFor a := by
  have hmap : (self.spawned.modify index f).map (isFor a) = self.spawned.map (isFor a) :=
    Selection.map_modify (isFor_modify hf)
  have haddr : ∀ i, self'.addrAt i = self.addrAt i := by
    intro i
    rw [addrAt, addrAt, hself', List.getElem?_modify]
    cases self.spawned[i]? with
    | none => rfl
    | some task =>
        split
        · exact congrArg some (hf task)
        · rfl
  funext i
  rw [indexFor, indexFor, haddr, hself', Selection.rank_congr hmap]

/-- A change of a connection changes it for its client. -/
theorem filter_modify (h : self.indexFor a index = some r) :
    (self.spawned.modify index f).filter (isFor a) = (self.only a).spawned.modify r f := by
  obtain ⟨task, hindex, haddr, rfl⟩ := indexFor_eq_some_iff.mp h
  exact Selection.filter_modify_of_pos hindex (isFor_iff.mpr haddr) (isFor_modify hf task)

/-- A change of a connection changes nothing for other clients. -/
theorem filter_modify_other (h : self.indexFor a index = none) :
    (self.spawned.modify index f).filter (isFor a) = (self.only a).spawned := by
  cases hindex : self.spawned[index]? with
  | none =>
      have hle := List.getElem?_eq_none_iff.mp hindex
      rw [List.modify_eq_self hle]
      rfl
  | some task =>
      rw [indexFor_eq_none_iff, addrAt, hindex, Option.map_some, ne_eq, Option.some.injEq] at h
      exact Selection.filter_modify_of_neg hindex (fun hp => h (isFor_iff.mp hp))
        (isFor_modify hf task)

/-- A step of a task is one of the restricted server if it is for the address, and
changes nothing there if it is not. -/
theorem onTask_only {ready : Spawned Addr Session → Bool}
    (hstep : self.onTask index ready f = some self') :
    (∀ r, self.indexFor a index = some r →
      (self.only a).onTask r ready f = some (self'.only a)) ∧
    (self.indexFor a index = none → self'.only a = self.only a) := by
  obtain ⟨⟨task, hindex, hready⟩, rfl⟩ := onTask_eq_some.mp hstep
  have hindexFor : Server.indexFor a { self with spawned := self.spawned.modify index f } =
      self.indexFor a := indexFor_modify hf rfl
  refine ⟨fun r hr => onTask_eq_some.mpr ⟨⟨task, (getElem?_only hr).trans hindex, hready⟩, ?_⟩,
    fun hnone => ?_⟩
  · simp only [only, hindexFor, filter_modify hf hr]
  · simp only [only, hindexFor, filter_modify_other hf hnone]

end

/-- The map entry of the address is the place of the task that it has in the map. -/
theorem entry_only : (self.only a).connections a = (self.connections a).bind (self.indexFor a) :=
  if_pos rfl

/-- If nothing is being inserted, nothing of the address is. -/
theorem ready_only (h : self.inserting = none) : (self.only a).inserting.isNone := by
  rw [only, h]
  rfl

/-- A connection at the end leaves the entry of a client as it is. -/
theorem entry_append (hfiled : self.Filed) {task : Spawned Addr Session}
    (hself' : self'.spawned = self.spawned ++ [task]) :
    (self.connections a).bind (self'.indexFor a) = (self.connections a).bind (self.indexFor a) := by
  cases hentry : self.connections a with
  | none => rfl
  | some index =>
      obtain ⟨old, hindex, -⟩ := Option.map_eq_some_iff.mp (hfiled a index hentry)
      obtain ⟨hlt, -⟩ := List.getElem?_eq_some_iff.mp hindex
      have hold : (self.spawned ++ [task])[index]? = self.spawned[index]? :=
        List.getElem?_append_left hlt
      rw [Option.bind_some, Option.bind_some, indexFor, indexFor, addrAt, addrAt, hself', hold,
        Selection.rank_append hlt.le]

variable [QuickplaySession Session] [BitstreamIo] [Crc]

/-- A connect of the client is one for it. -/
theorem connect_only (hfiled : self.Filed) {challenge : BitVec 32}
    (hstep : self.step (.connect a challenge) = some self') :
    (self.only a).step (.connect a challenge) = some (self'.only a) := by
  obtain ⟨hnone, hinserting, hconnections, -⟩ := step_connect hstep
  have hconfiguration := step_configuration hstep
  simp only [step, hnone, Option.isNone_none, if_true] at hstep
  simp only [step, ready_only hnone, if_true]
  have hspawned := congrArg Server.spawned (Option.some.inj hstep)
  dsimp only at hspawned
  have hfor : isFor a (Spawned.mk (Connection.new a (NetChannel.new challenge self.configuration)
      self.configuration : Connection Addr Session) true .waiting) = true := isFor_iff.mpr rfl
  have hindex : self'.indexFor a self.spawned.length = some (self.only a).spawned.length := by
    refine indexFor_eq_some_iff.mpr ⟨_, ?_, isFor_iff.mp hfor, ?_⟩
    · rw [← hspawned, List.getElem?_concat_length]
    · rw [← hspawned, Selection.rank_append le_rfl, Selection.rank_length]
      rfl
  simp only [only, hconnections, entry_append hfiled hspawned.symm, hinserting, hconfiguration,
    Option.bind_some, hindex, ← hspawned, List.filter_append, List.filter_cons_of_pos hfor,
    List.filter_nil]

/-- A connection for another address changes nothing for this one. -/
theorem connect_other (hfiled : self.Filed) {source : Addr} (hsource : source ≠ a)
    {challenge : BitVec 32} (hstep : self.step (.connect source challenge) = some self') :
    self'.only a = self.only a := by
  obtain ⟨hnone, hinserting, hconnections, task, hspawned, haddr, -⟩ := step_connect hstep
  have hfor : ¬ isFor a task := fun h => hsource (haddr ▸ isFor_iff.mp h)
  have hindex : self'.indexFor a self.spawned.length = none := by
    rw [indexFor_eq_none_iff, addrAt, hspawned, List.getElem?_concat_length, Option.map_some, haddr,
      ne_eq, Option.some.injEq]
    exact hsource
  have hconfiguration := step_configuration hstep
  simp only [only, hconnections, entry_append hfiled hspawned, hinserting, hnone, hspawned,
    hconfiguration, List.filter_append, List.filter_cons_of_neg hfor, List.filter_nil,
    List.append_nil, Option.bind_some, Option.bind_none, hindex]

/-- A packet of the client is one for it. -/
theorem packet_only {data : List UInt8} (hfiled : self.Filed)
    (hstep : self.step (.packet a data) = some self') :
    (self.only a).step (.packet a data) = some (self'.only a) := by
  simp only [step] at hstep
  split at hstep
  case isFalse => cases hstep
  case isTrue hnone =>
    rw [Option.isNone_iff_eq_none] at hnone
    simp only [step, ready_only hnone, if_true]
    split at hstep
    case h_1 index hentry =>
      obtain rfl := Option.some.inj hstep
      obtain ⟨r, hr⟩ : ∃ r, self.indexFor a index = some r := by
        rw [indexFor, if_pos (hfiled a index hentry)]
        exact ⟨_, rfl⟩
      have hindexFor : Server.indexFor a
          { self with spawned := self.spawned.modify index (Spawned.send data) } =
            self.indexFor a :=
        indexFor_modify (Spawned.send_clientAddr data) rfl
      have hentry' : (self.only a).connections a = some r := by
        rw [entry_only, hentry, Option.bind_some, hr]
      rw [hentry']
      simp only [only, hindexFor, filter_modify (Spawned.send_clientAddr data) hr]
    case h_2 hentry =>
      obtain rfl := Option.some.inj hstep
      have hentry' : (self.only a).connections a = none := by
        rw [entry_only, hentry, Option.bind_none]
      rw [hentry']

/-- A packet from another address changes nothing for this one. -/
theorem packet_other {data : List UInt8} (hfiled : self.Filed) {source : Addr}
    (hsource : source ≠ a)
    (hstep : self.step (.packet source data) = some self') : self'.only a = self.only a := by
  simp only [step] at hstep
  split at hstep
  case isFalse => cases hstep
  case isTrue =>
    split at hstep
    case h_2 =>
      obtain rfl := Option.some.inj hstep
      rfl
    case h_1 index hentry =>
      obtain rfl := Option.some.inj hstep
      have hnone : self.indexFor a index = none := by
        rw [indexFor_eq_none_iff, hfiled source index hentry, ne_eq, Option.some.injEq]
        exact hsource
      have hindexFor : Server.indexFor a
          { self with spawned := self.spawned.modify index (Spawned.send data) } =
            self.indexFor a :=
        indexFor_modify (Spawned.send_clientAddr data) rfl
      simp only [only, hindexFor, filter_modify_other (Spawned.send_clientAddr data) hnone]

end

end Server

/-! ## The tasks for one client -/

/-- The step as it is for one client, if it is a step of its tasks. -/
def TaskStep.only {Addr Session : Type} [DecidableEq Addr] (a : Addr)
    (self : Server Addr Session) : TaskStep → Option TaskStep
  | .insert => (self.inserting.bind (self.indexFor a)).map fun _ => .insert
  | .timeout index => (self.indexFor a index).map .timeout
  | .cancelled index => (self.indexFor a index).map .cancelled
  | .remove index => (self.indexFor a index).map .remove

namespace Server

variable {Addr Session : Type} [DecidableEq Addr] [QuickplaySession Session] [BitstreamIo] [Crc]
variable {a : Addr} {self self' : Server Addr Session}

omit [QuickplaySession Session] [BitstreamIo] [Crc] in
/-- The restricted map has one entry only, so setting it to some value is an update
of that entry. -/
theorem update_only (entry : Option Nat) :
    (fun b => if b = a then entry else none) =
      Function.update (self.only a).connections a entry := by
  funext b
  by_cases hb : b = a
  · rw [if_pos hb, hb, Function.update_self]
  · rw [if_neg hb, Function.update_of_ne hb]
    exact (if_neg hb).symm

/-- The pending insert is one of the restricted server if it is for the address, and
changes nothing there if it is not. -/
theorem insert_only (hstep : self.step .insert = some self') :
    (∀ r, self.inserting.bind (self.indexFor a) = some r →
      (self.only a).step .insert = some (self'.only a)) ∧
    (self.inserting.bind (self.indexFor a) = none → self'.only a = self.only a) := by
  simp only [step] at hstep
  split at hstep
  case h_2 => cases hstep
  case h_1 index hinserting =>
    split at hstep
    case h_2 => cases hstep
    case h_1 task hindex =>
      obtain rfl := Option.some.inj hstep
      have hindexFor : Server.indexFor a { self with
          connections := Function.update self.connections task.connection.clientAddr (some index)
          inserting := none } = self.indexFor a := rfl
      rw [hinserting, Option.bind_some]
      refine ⟨fun r hr => ?_, fun hnone => ?_⟩
      · obtain ⟨task', hindex', rfl, -⟩ := indexFor_eq_some_iff.mp hr
        obtain rfl := Option.some.inj (hindex.symm.trans hindex')
        have hinserting' : (self.only task.connection.clientAddr).inserting = some r := by
          rw [only, hinserting, Option.bind_some, hr]
        simp only [step, hinserting', (getElem?_only hr).trans hindex]
        rw [← update_only]
        simp only [only, hindexFor, Function.update_self, Option.bind_some, hr, Option.bind_none]
      · have hne : a ≠ task.connection.clientAddr := by
          rintro rfl
          rw [indexFor_eq_none_iff, addrAt, hindex] at hnone
          exact hnone rfl
        simp only [only, hindexFor, Function.update_of_ne hne, hinserting, Option.bind_some, hnone,
          Option.bind_none]

/-- The end of a task is one of the restricted server if it is for the address, and
changes nothing there if it is not. -/
theorem remove_only {index : Nat} (hstep : self.step (.remove index) = some self') :
    (∀ r, self.indexFor a index = some r →
      (self.only a).step (.remove r) = some (self'.only a)) ∧
    (self.indexFor a index = none → self'.only a = self.only a) := by
  simp only [step] at hstep
  split at hstep
  case h_2 => cases hstep
  case h_1 task hindex =>
    split at hstep
    case isFalse => cases hstep
    case isTrue hremoving =>
      obtain rfl := Option.some.inj hstep
      have hkeep : ∀ task : Spawned Addr Session,
          ({ task with removal := .removed } : Spawned Addr Session).connection.clientAddr =
            task.connection.clientAddr := fun _ => rfl
      have hindexFor : Server.indexFor a { self with
          connections := Function.update self.connections task.connection.clientAddr none
          spawned := self.spawned.modify index fun task => { task with removal := .removed } } =
          self.indexFor a := indexFor_modify hkeep rfl
      refine ⟨fun r hr => ?_, fun hnone => ?_⟩
      · obtain ⟨task', hindex', rfl, -⟩ := indexFor_eq_some_iff.mp hr
        obtain rfl := Option.some.inj (hindex.symm.trans hindex')
        simp only [step, (getElem?_only hr).trans hindex, if_pos hremoving]
        rw [← update_only, ← filter_modify hkeep hr]
        simp only [only, hindexFor, Function.update_self, Option.bind_none]
      · have hne : a ≠ task.connection.clientAddr := by
          rintro rfl
          rw [indexFor_eq_none_iff, addrAt, hindex] at hnone
          exact hnone rfl
        simp only [only, hindexFor, Function.update_of_ne hne, filter_modify_other hkeep hnone]

/-- A step of a task is one of the client's tasks, or none. -/
theorem task_only {step : TaskStep} (hstep : self.step step.event = some self') :
    (∀ step', step.only a self = some step' →
      (self.only a).step step'.event = some (self'.only a)) ∧
    (step.only a self = none → self'.only a = self.only a) := by
  have hmap : ∀ {k : Nat → TaskStep} {index : Nat},
      ((∀ r, self.indexFor a index = some r →
        (self.only a).step (k r).event = some (self'.only a)) ∧
        (self.indexFor a index = none → self'.only a = self.only a)) →
      (∀ step', (self.indexFor a index).map k = some step' →
        (self.only a).step step'.event = some (self'.only a)) ∧
      ((self.indexFor a index).map k = none → self'.only a = self.only a) := by
    rintro k index ⟨hsome, hnone⟩
    refine ⟨fun step' h => ?_, fun h => hnone (Option.map_eq_none_iff.mp h)⟩
    obtain ⟨r, hr, rfl⟩ := Option.map_eq_some_iff.mp h
    exact hsome r hr
  cases step with
  | insert =>
      obtain ⟨hsome, hnone⟩ := insert_only (a := a) hstep
      refine ⟨fun step' h => ?_, fun h => hnone (Option.map_eq_none_iff.mp h)⟩
      obtain ⟨r, hr, rfl⟩ := Option.map_eq_some_iff.mp h
      exact hsome r hr
  | timeout index => exact hmap (onTask_only (f := Spawned.cancel) (fun _ => rfl) hstep)
  | cancelled index =>
      exact hmap
        (onTask_only (f := fun task => { task with removal := .removing }) (fun _ => rfl) hstep)
  | remove index => exact hmap (remove_only hstep)

end Server

/-! ## The service for one client -/

/-- The input as it is for one client, if it is anything for it. -/
def Input.only {Addr F : Type} [DecidableEq Addr] (a : Addr) (self : Service Addr F) :
    Input Addr → Option (Input Addr)
  | .receive socket source datagram =>
      if source = a then some (.receive socket source datagram) else none
  | .work socket index inForce =>
      (self.server.indexFor a index).map fun r => .work socket r inForce
  | .task step => (step.only a self.server).map .task
  | .refresh round => some (.refresh round)

namespace Service

section

open Connectionless (processConnectionlessPacket processConnectionlessPacket_eq deliver_appends
  respond getChallengeForAddress sendTo sendTo_appends)

variable {Addr F SnapError : Type} [DecidableEq Addr]

/-- The service as it is for one client. -/
def only (a : Addr) (self : Service Addr F) : Service Addr F where
  server := self.server.only a
  serverLists := self.serverLists
  sent := self.sent.filter (·.1 = a)

section

variable {a target : Addr} {sent sent' : Sent Addr}
variable (htargets : ∀ packet ∈ sent', packet.1 = target)
include htargets

/-- Packets that are sent to the address are all kept. -/
theorem filter_sent_of_eq (h : target = a) :
    (sent ++ sent').filter (·.1 = a) = sent.filter (·.1 = a) ++ sent' := by
  have hall : sent'.filter (·.1 = a) = sent' :=
    List.filter_eq_self.mpr fun packet hpacket => by simpa [htargets packet hpacket] using h
  rw [List.filter_append, hall]

/-- Packets that are sent to others are all left out. -/
theorem filter_sent_of_ne (h : target ≠ a) :
    (sent ++ sent').filter (·.1 = a) = sent.filter (·.1 = a) := by
  have hnil : sent'.filter (·.1 = a) = [] :=
    List.filter_eq_nil_iff.mpr fun packet hpacket => by simpa [htargets packet hpacket] using h
  rw [List.filter_append, hnil, List.append_nil]

end

variable [ToString Addr] [AddressHasher Addr] [SocketAddr Addr] [F32 F]
variable [SerdeJson F] [Snap SnapError] [BitstreamIo] [Crc]
variable {a : Addr} {self self' : Service Addr F}

/-- A datagram is one of the client's, or none. -/
theorem receive_only (hfiled : self.server.Filed) {socket : UdpSocket Addr} {source : Addr}
    {datagram : List UInt8} (hstep : self.step (.receive socket source datagram) = some self') :
    (source = a → (self.only a).step (.receive socket source datagram) = some (self'.only a)) ∧
      (source ≠ a → self'.only a = self.only a) := by
  simp only [step] at hstep
  split at hstep
  case isFalse => cases hstep
  case isTrue hnone =>
    rw [Option.isNone_iff_eq_none] at hnone
    have hready : (self.only a).server.inserting.isNone := Server.ready_only hnone
    simp only [step, hready, if_true]
    cases hdecode : received datagram with
    | error e =>
        unfold received at hdecode
        simp only [handlePacket, hdecode] at hstep ⊢
        obtain rfl := Option.some.inj hstep
        exact ⟨fun _ => rfl, fun _ => rfl⟩
    | ok packet =>
        unfold received at hdecode
        cases packet with
        | regular data =>
            simp only [handlePacket, hdecode] at hstep ⊢
            obtain ⟨server, hserver, heq⟩ := Option.bind_eq_some_iff.mp hstep
            obtain rfl := Option.some.inj heq
            refine ⟨?_, fun hsource => ?_⟩
            · rintro rfl
              exact Option.bind_eq_some_iff.mpr
                ⟨_, Server.packet_only hfiled hserver, rfl⟩
            · rw [only, Server.packet_other hfiled hsource hserver]
              rfl
        | connectionless data =>
            obtain ⟨outcome, sent', htargets, hprocess⟩ := deliver_appends socket source
              (respond (getChallengeForAddress source) self.server.configuration data)
            rw [← processConnectionlessPacket_eq] at hprocess
            have hconfiguration : (self.only a).server.configuration = self.server.configuration :=
              rfl
            -- only a challenge makes a difference to the map
            have hkeep : some ({ self with sent := self.sent ++ sent' } : Service Addr F) =
                some self' →
                (source = a → some { self.only a with sent := (self.only a).sent ++ sent' } =
                  some (self'.only a)) ∧ (source ≠ a → self'.only a = self.only a) := by
              intro heq
              obtain rfl := Option.some.inj heq
              refine ⟨fun hsource => ?_, fun hsource => ?_⟩
              · simp only [only, filter_sent_of_eq htargets hsource]
              · simp only [only, filter_sent_of_ne htargets hsource]
            simp only [handlePacket, hdecode, hconfiguration, hprocess] at hstep ⊢
            cases outcome with
            | err e => exact hkeep hstep
            | panic => exact hkeep hstep
            | ok challenge =>
                cases challenge with
                | none => exact hkeep hstep
                | some challenge =>
                    obtain ⟨server, hserver, heq⟩ := Option.bind_eq_some_iff.mp hstep
                    obtain rfl := Option.some.inj heq
                    refine ⟨?_, fun hsource => ?_⟩
                    · rintro rfl
                      refine Option.bind_eq_some_iff.mpr
                        ⟨_, Server.connect_only hfiled hserver, ?_⟩
                      simp only [only, filter_sent_of_eq htargets rfl]
                    · simp only [only, Server.connect_other hfiled hsource hserver,
                        filter_sent_of_ne htargets hsource]

omit [AddressHasher Addr] [SerdeJson F] [Snap SnapError] in
omit [DecidableEq Addr] [SocketAddr Addr] in
/-- A round of a worker leaves the address of its client. -/
theorem workOn_clientAddr (lists : Nat → List (ServerInfo Addr F))
    (task : Spawned Addr Quickplay.QuickplaySession) :
    (task.workOn lists).1.connection.clientAddr = task.connection.clientAddr := by
  obtain ⟨foundServer, heq⟩ := task.workOn_eq lists
  rw [heq]
  exact (Server.work_follows foundServer task).1

/-- A round of a worker does the same wherever the connection is. -/
theorem step_work {task : Spawned Addr Quickplay.QuickplaySession} (hworking : task.working = true)
    (serverLists : List (List (ServerInfo Addr F))) (socket : UdpSocket Addr)
    (inForce : Nat → Nat) :
    ∃ sent' : Sent Addr, (∀ packet ∈ sent', packet.1 = task.connection.clientAddr) ∧
      ∀ (self : Service Addr F) index, self.serverLists = serverLists →
        self.server.spawned[index]? = some task →
        self.step (.work socket index inForce) = some { self with
          server := { self.server with
            spawned := self.server.spawned.modify index fun task =>
              (task.workOn fun message => serverLists.getD (inForce message) []).1 }
          sent := self.sent ++ sent' } := by
  have hmodify : ∀ (self : Service Addr F) index, self.server.spawned[index]? = some task →
      (self.server.spawned.modify index fun task =>
        (task.workOn fun message => serverLists.getD (inForce message) []).1) =
      self.server.spawned.set index
        (task.workOn fun message => serverLists.getD (inForce message) []).1 := by
    intro self index hindex
    rw [List.modify_eq_set_getElem?, hindex]
    rfl
  cases hdata : (task.workOn fun message => serverLists.getD (inForce message) []).2 with
  | none =>
      refine ⟨[], by simp, fun self index hlists hindex => ?_⟩
      simp only [step, hindex, hworking, if_true, hlists, hdata, hmodify self index hindex,
        List.append_nil]
  | some data =>
      obtain ⟨outcome, sent', htargets, hsend⟩ :=
        sendTo_appends socket data task.connection.clientAddr
      refine ⟨sent', htargets, fun self index hlists hindex => ?_⟩
      simp only [step, hindex, hworking, if_true, hlists, hdata, hmodify self index hindex, hsend]

/-- A round of a worker is one of the client's, or none. -/
theorem work_only {socket : UdpSocket Addr} {index : Nat} {inForce : Nat → Nat}
    (hstep : self.step (.work socket index inForce) = some self') :
    (∀ r, self.server.indexFor a index = some r →
      (self.only a).step (.work socket r inForce) = some (self'.only a)) ∧
    (self.server.indexFor a index = none → self'.only a = self.only a) := by
  obtain ⟨task, hindex, hworking⟩ : ∃ task, self.server.spawned[index]? = some task ∧
      task.working = true := by
    cases step_cases hstep with
    | @work _ _ _ task _ hindex hworking => exact ⟨task, hindex, hworking⟩
  obtain ⟨sent', htargets, hwork⟩ := step_work hworking self.serverLists socket inForce
  rw [hwork self index rfl hindex] at hstep
  obtain rfl := Option.some.inj hstep
  have hkeep := workOn_clientAddr fun message => self.serverLists.getD (inForce message) []
  have hindexFor : Server.indexFor a { self.server with
      spawned := self.server.spawned.modify index fun task =>
        (task.workOn fun message => self.serverLists.getD (inForce message) []).1 } =
      self.server.indexFor a := Server.indexFor_modify hkeep rfl
  refine ⟨fun r hr => ?_, fun hnone => ?_⟩
  · rw [hwork (self.only a) r rfl ((Server.getElem?_only hr).trans hindex)]
    obtain ⟨task', hindex', haddr, -⟩ := Server.indexFor_eq_some_iff.mp hr
    obtain rfl := Option.some.inj (hindex.symm.trans hindex')
    simp only [only, filter_sent_of_eq htargets haddr, Server.only, hindexFor,
      Server.filter_modify hkeep hr]
  · have hne : task.connection.clientAddr ≠ a := by
      rw [Server.indexFor_eq_none_iff, Server.addrAt, hindex] at hnone
      exact fun heq => hnone (congrArg some heq)
    simp only [only, filter_sent_of_ne htargets hne, Server.only, hindexFor,
      Server.filter_modify_other hkeep hnone]

/-- A step of the service is one of the service for one client, or none. -/
theorem step_only (hfiled : self.server.Filed) {input : Input Addr}
    (hstep : self.step input = some self') :
    Run.run step (self.only a) (input.only a self).toList = some (self'.only a) := by
  cases input with
  | receive socket source datagram =>
      obtain ⟨hown, hother⟩ := receive_only (a := a) hfiled hstep
      by_cases hsource : source = a
      · rw [Input.only, if_pos hsource]
        exact Run.run_cons_eq_some.mpr ⟨_, hown hsource, rfl⟩
      · rw [Input.only, if_neg hsource, hother hsource]
        rfl
  | work socket index inForce =>
      obtain ⟨hown, hother⟩ := work_only (a := a) hstep
      refine Run.run_toList (fun input' h => ?_) fun h => hother (Option.map_eq_none_iff.mp h)
      obtain ⟨r, hr, rfl⟩ := Option.map_eq_some_iff.mp h
      exact hown r hr
  | task step =>
      obtain ⟨server, hserver, heq⟩ := Option.bind_eq_some_iff.mp hstep
      obtain rfl := Option.some.inj heq
      obtain ⟨hown, hother⟩ := Server.task_only (a := a) hserver
      refine Run.run_toList (fun input' h => ?_) fun h => ?_
      · obtain ⟨step', hstep', rfl⟩ := Option.map_eq_some_iff.mp h
        exact Option.bind_eq_some_iff.mpr ⟨_, hown step' hstep', rfl⟩
      · rw [only, hother (Option.map_eq_none_iff.mp h)]
        rfl
  | refresh refresh =>
      obtain rfl := Option.some.inj hstep
      rfl

omit [ToString Addr] [AddressHasher Addr] [SocketAddr Addr] [F32 F] [SerdeJson F]
  [Snap SnapError] [BitstreamIo] [Crc] in
/-- A new service is empty, and so is its restriction. -/
theorem only_new (configuration : Configuration) :
    (new configuration : Service Addr F).only a = new configuration := by
  have hconnections : (fun b : Addr => if b = a then (none : Option Nat).bind
      (Server.indexFor a (Server.new configuration : Server Addr Quickplay.QuickplaySession))
      else none) = fun _ => none := by
    funext b
    split <;> rfl
  have hserver : (Server.new configuration : Server Addr Quickplay.QuickplaySession).only a =
      Server.new configuration := by
    exact congrArg (fun connections => ({
      connections, spawned := [], inserting := none, configuration } :
      Server Addr Quickplay.QuickplaySession)) hconnections
  rw [only, new, hserver]
  rfl

/-- Every client of a run has a run of its own: the run without the datagrams
and the tasks of the others. -/
theorem run_only {configuration : Configuration} {inputs : List (Input Addr)}
    (hrun : Run.run step (new configuration) inputs = some self) (a : Addr) :
    Run.run step (new configuration)
      (Run.project step (Input.only a) (new configuration : Service Addr F) inputs) =
        some (self.only a) := by
  have hproject := Run.run_project (f := only a)
    (I := fun self : Service Addr F => self.server.Filed)
    (fun self input self' hfiled hstep => (step_cases hstep).filed hfiled)
    (fun self input self' hfiled hstep => step_only hfiled hstep)
    (fun a index h => by simp [new, Server.new] at h) hrun
  rw [only_new] at hproject
  exact hproject

end

/-- Two clients at once. -/
def twoClients : List (Input (Fin 16)) :=
  [.receive openSocket anotherClient (connect 3 9), .task .insert, .refresh readable,
    .receive openSocket aClient (connect 7 5), .task .insert,
    .receive openSocket anotherClient (hello 9), .receive openSocket aClient askPacket,
    .work openSocket 0 fun _ => 0, .work openSocket 1 fun _ => 0]

/-- One of the clients sees a run of its own. -/
theorem run_only_twoClients : ∃ self : Service (Fin 16) ℚ,
    Run.run step (new .loadDefault) twoClients = some self ∧
      Run.run step (new .loadDefault) (Run.project step (Input.only aClient)
        (new .loadDefault : Service (Fin 16) ℚ) twoClients) = some (self.only aClient) ∧
      self.sent.length = 5 ∧ (self.only aClient).sent.length = 2 := by
  have hrun : (Run.run step (new .loadDefault : Service (Fin 16) ℚ) twoClients).map
      (fun self => (self.sent.length, (self.only aClient).sent.length)) = some (5, 2) := by
    decide +kernel
  obtain ⟨self, hself, heq⟩ := Option.map_eq_some_iff.mp hrun
  obtain ⟨hall, hown⟩ := Prod.mk.inj heq
  exact ⟨self, hself, run_only hself aClient, hall, hown⟩

end Service

end QuickplayServer
