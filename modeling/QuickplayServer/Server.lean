import QuickplayServer.Connection
import QuickplayServer.Lib.Run

/-!
# QuickplayServer.Server

The server's connection map (`Server` in `src/main.rs`) and the tasks around
it: the receive loop, and for every connection a background worker and a task
that removes it.  Every step of a task between two `await`s that touches the
map or a cancel token is one event; any task may take the next event.
-/

namespace QuickplayServer

/-- Where `remove_dead_connection` is. -/
inductive Removal where
  /-- It waits for its timer or its token. -/
  | waiting
  /-- It is about to remove the address from the map. -/
  | removing
  | removed
  deriving DecidableEq, Repr

/-- A connection with its tasks. -/
structure Spawned (Addr Session : Type) where
  connection : Connection Addr Session
  /-- `background_worker` has not left its loop. -/
  working : Bool
  removal : Removal

structure Server (Addr Session : Type) where
  /-- The index of the connection whose token and sender are in the map. -/
  connections : Addr → Option Nat
  /-- Every connection that was created, in order. -/
  spawned : List (Spawned Addr Session)
  /-- The connection that `create_connection` is about to insert. -/
  inserting : Option Nat
  configuration : Configuration

inductive Event (Addr : Type) where
  /-- A valid C2S_CONNECT: `create_connection` up to the lock of the map. -/
  | connect (source : Addr) (challenge : BitVec 32)
  /-- The rest of `create_connection`. -/
  | insert
  /-- A regular packet. -/
  | packet (source : Addr) (data : List UInt8)
  /-- A round of `background_worker`. -/
  | work (index : Nat) (foundServer : Nat → Option String)
  /-- The timer of `remove_dead_connection`. -/
  | timeout (index : Nat)
  /-- The token of `remove_dead_connection`. -/
  | cancelled (index : Nat)
  /-- The rest of `remove_dead_connection`. -/
  | remove (index : Nat)

namespace Spawned

variable {Addr Session : Type}

/-- A packet that the receive loop sends to the worker; nobody takes it once
the worker has stopped. -/
def send (data : List UInt8) (self : Spawned Addr Session) : Spawned Addr Session :=
  if self.working then
    { self with connection :=
        { self.connection with packetReceiver := self.connection.packetReceiver ++ [data] } }
  else self

def cancel (self : Spawned Addr Session) : Spawned Addr Session :=
  { self with connection := self.connection.cancel, removal := .removing }

/-- The same connection, further on. -/
def Follows (self self' : Spawned Addr Session) : Prop := self.connection.Follows self'.connection

variable [QuickplaySession Session] [BitstreamIo] [Crc]

/-- `while !self.cancel_token.is_cancelled()`; a panic ends the task as well. -/
def work (foundServer : Nat → Option String) (self : Spawned Addr Session) : Spawned Addr Session :=
  if self.connection.cancelToken then { self with working := false }
  else
    match self.connection.backgroundWorkerRound foundServer with
    | (.panic, connection) => { self with connection, working := false }
    | (_, connection) => { self with connection }

end Spawned

namespace Server

variable {Addr Session : Type}

/-- A server without connections. -/
def new (configuration : Configuration) : Server Addr Session where
  connections := fun _ => none
  spawned := []
  inserting := none
  configuration := configuration

/-- A step of one task, if it is ready for it. -/
def onTask (self : Server Addr Session) (index : Nat) (ready : Spawned Addr Session → Bool)
    (f : Spawned Addr Session → Spawned Addr Session) : Option (Server Addr Session) :=
  match self.spawned[index]? with
  | some task =>
      if ready task then some { self with spawned := self.spawned.modify index f } else none
  | none => none

section

variable [DecidableEq Addr] [QuickplaySession Session] [BitstreamIo] [Crc]

def step (self : Server Addr Session) : Event Addr → Option (Server Addr Session)
  | .connect source challenge =>
      if self.inserting.isNone then
        let connection :=
          Connection.new source (NetChannel.new challenge self.configuration) self.configuration
        some { self with
          spawned := self.spawned ++ [{ connection, working := true, removal := .waiting }]
          inserting := some self.spawned.length }
      else none
  | .insert =>
      match self.inserting with
      | some index =>
          match self.spawned[index]? with
          | some task => some { self with
              connections :=
                Function.update self.connections task.connection.clientAddr (some index)
              inserting := none }
          | none => none
      | none => none
  | .packet source data =>
      if self.inserting.isNone then
        match self.connections source with
        | some index => some { self with spawned := self.spawned.modify index (Spawned.send data) }
        | none => some self
      else none
  | .work index foundServer => self.onTask index (·.working) (Spawned.work foundServer)
  | .timeout index => self.onTask index (·.removal = .waiting) Spawned.cancel
  | .cancelled index =>
      self.onTask index (fun task => task.removal = .waiting && task.connection.cancelToken)
        fun task => { task with removal := .removing }
  | .remove index =>
      match self.spawned[index]? with
      | some task =>
          if task.removal = .removing then
            some { self with
              connections := Function.update self.connections task.connection.clientAddr none
              spawned := self.spawned.modify index fun task => { task with removal := .removed } }
          else none
      | none => none

/-! ## What a step does to the connections -/

/-- The address of the connection at `index`. -/
def addrAt (self : Server Addr Session) (index : Nat) : Option Addr :=
  self.spawned[index]?.map (·.connection.clientAddr)

/-- The connection at `index` has the address `a` and is not cancelled. -/
def Live (self : Server Addr Session) (a : Addr) (index : Nat) : Prop :=
  ∃ task, self.spawned[index]? = some task ∧ task.connection.clientAddr = a ∧
    task.connection.cancelToken = false

/-- The connection at `index` is the last one created for `a`. -/
def Newest (self : Server Addr Session) (a : Addr) (index : Nat) : Prop :=
  self.addrAt index = some a ∧ ∀ later, index < later → self.addrAt later ≠ some a

/-- `self'` has the same connections as `self`, further on. -/
def Advances (self self' : Server Addr Session) : Prop :=
  ∀ index : Nat, Option.Rel Spawned.Follows self.spawned[index]? self'.spawned[index]?

section

omit [DecidableEq Addr] [QuickplaySession Session] [BitstreamIo] [Crc]

/-- A live connection has its address. -/
theorem Live.addrAt {self : Server Addr Session} {a : Addr} {index : Nat} (h : self.Live a index) :
    self.addrAt index = some a := by
  obtain ⟨task, hindex, rfl, -⟩ := h
  rw [Server.addrAt, hindex, Option.map_some]

/-- An update of one task that takes its connection further on takes the server
further on. -/
theorem advances_modify (self : Server Addr Session) {index : Nat}
    {f : Spawned Addr Session → Spawned Addr Session}
    (hf : ∀ task, Spawned.Follows task (f task)) {self' : Server Addr Session}
    (hself' : self'.spawned = self.spawned.modify index f) : self.Advances self' := by
  intro i
  rw [hself', List.getElem?_modify]
  cases self.spawned[i]? with
  | none => exact .none
  | some task =>
      refine .some ?_
      dsimp only
      split
      · exact hf task
      · exact refl_of Connection.Follows _

/-- A connection that is live further on was live before; no token is uncancelled. -/
theorem Advances.live {self self' : Server Addr Session} (h : self.Advances self') {a : Addr}
    {index : Nat} (hlive : self'.Live a index) : self.Live a index := by
  obtain ⟨task', hindex', rfl, hcancel⟩ := hlive
  have hrel := h index
  rw [hindex'] at hrel
  cases hindex : self.spawned[index]? with
  | none => rw [hindex] at hrel; cases hrel
  | some task =>
      rw [hindex] at hrel
      obtain ⟨haddr, hkeep⟩ := Option.rel_some_some.mp hrel
      refine ⟨task, hindex, haddr.symm, ?_⟩
      cases htoken : task.connection.cancelToken with
      | false => rfl
      | true => exact absurd (hkeep htoken) (by simp [hcancel])

/-- The connections keep their addresses. -/
theorem Advances.addrAt {self self' : Server Addr Session} (h : self.Advances self') (index : Nat) :
    self'.addrAt index = self.addrAt index := by
  have hrel := h index
  unfold Server.addrAt
  generalize self.spawned[index]? = before, self'.spawned[index]? = after at hrel ⊢
  cases hrel with
  | none => rfl
  | some hfollows => exact congrArg some hfollows.1

/-- The newest connection of an address stays the newest if none is created. -/
theorem Advances.newest {self self' : Server Addr Session} (h : self.Advances self') {a : Addr}
    {index : Nat} : self'.Newest a index ↔ self.Newest a index := by
  unfold Newest
  simp only [h.addrAt]

/-- A step of a task is one if the task is there and ready for it, and it updates
this task only. -/
theorem onTask_eq_some {self self' : Server Addr Session} {index : Nat}
    {ready : Spawned Addr Session → Bool} {f : Spawned Addr Session → Spawned Addr Session} :
    self.onTask index ready f = some self' ↔
      (∃ task, self.spawned[index]? = some task ∧ ready task) ∧
        self' = { self with spawned := self.spawned.modify index f } := by
  unfold onTask
  cases self.spawned[index]? with
  | none => simp
  | some task =>
      have hready : (∃ task', some task = some task' ∧ ready task') ↔ ready task := by simp
      rw [hready]
      dsimp only
      split
      case isTrue htrue =>
        exact ⟨fun h => ⟨htrue, (Option.some.inj h).symm⟩, fun h => congrArg some h.2.symm⟩
      case isFalse hfalse => exact iff_of_false (by simp) fun h => hfalse h.1

end

omit [DecidableEq Addr] in
/-- A round of a worker takes its connection further on. -/
theorem work_follows (foundServer : Nat → Option String) (task : Spawned Addr Session) :
    Spawned.Follows task (task.work foundServer) := by
  have hround := Connection.backgroundWorkerRound_follows foundServer task.connection
  unfold Spawned.work
  split
  · exact refl_of Connection.Follows _
  · split
    case h_1 hpanic => rwa [hpanic] at hround
    case h_2 hreturned => rwa [hreturned] at hround

/-- Every step but a connect only moves the connections on. -/
theorem advances_step {self self' : Server Addr Session} {event : Event Addr}
    (hstep : self.step event = some self')
    (hevent : ∀ source challenge, event ≠ .connect source challenge) : self.Advances self' := by
  have hrefl : self.Advances self := fun index => by
    cases self.spawned[index]? with
    | none => exact .none
    | some task => exact .some (refl_of Connection.Follows _)
  cases event with
  | connect source challenge => exact absurd rfl (hevent source challenge)
  | insert =>
      simp only [step] at hstep
      split at hstep
      · split at hstep
        · obtain rfl := Option.some.inj hstep
          exact hrefl
        · cases hstep
      · cases hstep
  | packet source data =>
      simp only [step] at hstep
      split at hstep
      · split at hstep
        · obtain rfl := Option.some.inj hstep
          refine self.advances_modify (fun task => ?_) rfl
          unfold Spawned.send
          split <;> exact refl_of Connection.Follows _
        · obtain rfl := Option.some.inj hstep
          exact hrefl
      · cases hstep
  | work index foundServer =>
      obtain ⟨-, rfl⟩ := onTask_eq_some.mp hstep
      exact self.advances_modify (work_follows foundServer) rfl
  | timeout index =>
      obtain ⟨-, rfl⟩ := onTask_eq_some.mp hstep
      refine self.advances_modify ?_ rfl
      exact fun task => ⟨rfl, fun _ => rfl⟩
  | cancelled index =>
      obtain ⟨-, rfl⟩ := onTask_eq_some.mp hstep
      refine self.advances_modify ?_ rfl
      exact fun task => refl_of Connection.Follows _
  | remove index =>
      simp only [step] at hstep
      split at hstep
      · split at hstep
        · obtain rfl := Option.some.inj hstep
          refine self.advances_modify ?_ rfl
          exact fun task => refl_of Connection.Follows _
        · cases hstep
      · cases hstep

/-- A connect appends a connection that is not cancelled. -/
theorem step_connect {self self' : Server Addr Session} {source : Addr} {challenge : BitVec 32}
    (hstep : self.step (.connect source challenge) = some self') :
    self.inserting = none ∧ self'.inserting = some self.spawned.length ∧
      self'.connections = self.connections ∧ ∃ task, self'.spawned = self.spawned ++ [task] ∧
        task.connection.clientAddr = source ∧ task.connection.cancelToken = false := by
  simp only [step] at hstep
  split at hstep
  case isTrue hnone =>
    obtain rfl := Option.some.inj hstep
    exact ⟨by simpa using hnone, rfl, rfl, _, rfl, rfl, rfl⟩
  case isFalse => cases hstep

/-- A new connection is the last one, and the others keep their addresses. -/
theorem addrAt_connect {self self' : Server Addr Session} {source : Addr} {challenge : BitVec 32}
    (hstep : self.step (.connect source challenge) = some self') (index : Nat) :
    self'.addrAt index = if index = self.spawned.length then some source
      else self.addrAt index := by
  obtain ⟨-, -, -, task, hspawned, haddr, -⟩ := step_connect hstep
  unfold addrAt
  rw [hspawned]
  split
  case isTrue heq => simp [heq, haddr]
  case isFalse hne =>
    rcases Nat.lt_or_ge index self.spawned.length with hlt | hge
    · rw [List.getElem?_append_left hlt]
    · rw [List.getElem?_eq_none hge, List.getElem?_eq_none (by simp; omega)]

/-- A new connection is live, and the others are as live as before. -/
theorem live_connect {self self' : Server Addr Session} {source : Addr} {challenge : BitVec 32}
    (hstep : self.step (.connect source challenge) = some self') {a : Addr} {index : Nat} :
    self'.Live a index ↔ self.Live a index ∨ (a = source ∧ index = self.spawned.length) := by
  obtain ⟨-, -, -, task, hspawned, rfl, htoken⟩ := step_connect hstep
  unfold Live
  rw [hspawned]
  rcases Nat.lt_trichotomy index self.spawned.length with hlt | rfl | hgt
  · rw [List.getElem?_append_left hlt]
    exact ⟨.inl, fun h => h.resolve_right fun h => by omega⟩
  · rw [List.getElem?_concat_length, List.getElem?_eq_none (Nat.le_refl _)]
    constructor
    · rintro ⟨task', htask, rfl, -⟩
      obtain rfl := Option.some.inj htask
      exact .inr ⟨rfl, rfl⟩
    · rintro (⟨task', htask, -⟩ | ⟨rfl, -⟩)
      · cases htask
      · exact ⟨task, rfl, rfl, htoken⟩
  · rw [List.getElem?_eq_none (by simp; omega), List.getElem?_eq_none (by omega)]
    simp
    omega

omit [DecidableEq Addr] [QuickplaySession Session] [BitstreamIo] [Crc] in
/-- A live connection is one of those that were created. -/
theorem Live.lt {self : Server Addr Session} {a : Addr} {index : Nat} (h : self.Live a index) :
    index < self.spawned.length := by
  obtain ⟨task, hindex, -⟩ := h
  exact (List.getElem?_eq_some_iff.mp hindex).1

/-! ## One live worker for an address -/

/-- No two connections of an address are live. -/
def OneLive (self : Server Addr Session) : Prop :=
  ∀ a i j, self.Live a i → self.Live a j → i = j

/-- At most one connection of an address is live throughout a run exactly when
every connect finds all earlier connections of its address cancelled. -/
theorem always_oneLive_iff {configuration : Configuration} {events : List (Event Addr)}
    {self : Server Addr Session} (hrun : Run.run step (new configuration) events = some self) :
    Run.Always step (new configuration : Server Addr Session) events OneLive ↔
      Run.EachStep step (new configuration : Server Addr Session) events fun self event =>
        ∀ source challenge, event = .connect source challenge → ∀ i, ¬ self.Live source i := by
  have hempty : (new configuration : Server Addr Session).OneLive := fun a i j hi =>
    absurd hi.lt (by simp [new])
  refine Run.always_iff_eachStep (I := fun _ => True) (fun _ _ _ _ _ => trivial) ?_ trivial
    hempty hrun
  intro self event self' _ hone hstep
  by_cases hevent : ∃ source challenge, event = .connect source challenge
  · obtain ⟨source, challenge, rfl⟩ := hevent
    have hlive {a : Addr} {i : Nat} : self'.Live a i ↔ _ := live_connect hstep
    constructor
    · intro h source' challenge' heq i hi
      obtain ⟨rfl, rfl⟩ := Event.connect.inj heq
      have hsame := h source i _ (hlive.mpr (.inl hi)) (hlive.mpr (.inr ⟨rfl, rfl⟩))
      exact absurd hi.lt (by omega)
    · intro h a i j hi hj
      have hnone := h source challenge rfl
      obtain hi | ⟨ha, hi⟩ := hlive.mp hi <;> obtain hj | ⟨ha', hj⟩ := hlive.mp hj
      · exact hone a i j hi hj
      · exact absurd (ha' ▸ hi) (hnone i)
      · exact absurd (ha ▸ hj) (hnone j)
      · exact hi.trans hj.symm
  · have hadvances :=
      advances_step hstep fun source challenge heq => hevent ⟨source, challenge, heq⟩
    refine iff_of_true (fun a i j hi hj => ?_) fun source challenge heq => ?_
    · exact hone a i j (hadvances.live hi) (hadvances.live hj)
    · exact absurd ⟨source, challenge, heq⟩ hevent

end

/-- A session that has nothing to say. -/
instance : QuickplaySession Unit where
  new _ := ()
  updatePreferencesFromConvars _ _ := (.ok (), ())

/-- A client whose connect packet arrives twice. -/
def connectedTwice : List (Event Nat) := [.connect 0 5#32, .insert, .connect 0 5#32, .insert]

/-- The condition, at the one client that connects. -/
theorem always_oneLive_once :
    Run.Always step (new Configuration.loadDefault : Server Nat Unit) [.connect 0 5#32, .insert]
        OneLive ↔
      Run.EachStep step (new Configuration.loadDefault : Server Nat Unit)
        [.connect 0 5#32, .insert] fun self event =>
          ∀ source challenge, event = .connect source challenge → ∀ i, ¬ self.Live source i :=
  always_oneLive_iff rfl

/-- Two connects from one address leave two live connections. -/
theorem connectedTwice_not_oneLive : ∃ self : Server Nat Unit,
    Run.run step (new Configuration.loadDefault) connectedTwice = some self ∧ ¬ self.OneLive :=
  ⟨_, rfl, fun h => absurd (h 0 0 1 ⟨_, rfl, rfl, rfl⟩ ⟨_, rfl, rfl, rfl⟩) (by decide)⟩

section

variable [DecidableEq Addr] [QuickplaySession Session] [BitstreamIo] [Crc]

/-! ## The entry of a live connection -/

/-- Packets are routed to the newest connection of an address, once it is
inserted and while it is live. -/
def Routed (self : Server Addr Session) : Prop :=
  ∀ a i, self.Newest a i → self.inserting ≠ some i → self.Live a i → self.connections a = some i

/-- The connection that is being inserted is the last one that was created. -/
def InsertsLast (self : Server Addr Session) : Prop :=
  ∀ index, self.inserting = some index → ∀ later, index < later → self.addrAt later = none

/-- What a step does to the map. -/
theorem step_connections {self self' : Server Addr Session} {event : Event Addr}
    (hstep : self.step event = some self') :
    match event with
    | .connect .. => self.inserting = none ∧ self'.inserting = some self.spawned.length ∧
        self'.connections = self.connections
    | .insert => ∃ index a, self.inserting = some index ∧ self.addrAt index = some a ∧
        self'.connections = Function.update self.connections a (some index) ∧ self'.inserting = none
    | .remove index => ∃ a, self.addrAt index = some a ∧
        self'.connections = Function.update self.connections a none ∧
          self'.inserting = self.inserting
    | _ => self'.connections = self.connections ∧ self'.inserting = self.inserting := by
  cases event with
  | connect source challenge =>
      obtain ⟨hnone, hinserting, hconnections, -⟩ := step_connect hstep
      exact ⟨hnone, hinserting, hconnections⟩
  | insert =>
      simp only [step] at hstep
      split at hstep
      case h_1 index hinserting =>
        split at hstep
        case h_1 task hindex =>
          obtain rfl := Option.some.inj hstep
          exact ⟨index, _, hinserting, by rw [addrAt, hindex, Option.map_some], rfl, rfl⟩
        case h_2 => cases hstep
      case h_2 => cases hstep
  | packet source data =>
      simp only [step] at hstep
      split at hstep
      · split at hstep <;> obtain rfl := Option.some.inj hstep <;> exact ⟨rfl, rfl⟩
      · cases hstep
  | remove index =>
      simp only [step] at hstep
      split at hstep
      case h_1 task hindex =>
        split at hstep
        · obtain rfl := Option.some.inj hstep
          exact ⟨_, by rw [addrAt, hindex, Option.map_some], rfl, rfl⟩
        · cases hstep
      case h_2 => cases hstep
  | work index foundServer =>
      obtain ⟨-, rfl⟩ := onTask_eq_some.mp hstep
      exact ⟨rfl, rfl⟩
  | timeout index =>
      obtain ⟨-, rfl⟩ := onTask_eq_some.mp hstep
      exact ⟨rfl, rfl⟩
  | cancelled index =>
      obtain ⟨-, rfl⟩ := onTask_eq_some.mp hstep
      exact ⟨rfl, rfl⟩

/-- The connection that is being inserted stays the last one, since no other can be
created meanwhile. -/
theorem insertsLast_step {self self' : Server Addr Session} {event : Event Addr}
    (h : self.InsertsLast) (hstep : self.step event = some self') : self'.InsertsLast := by
  have hmap := step_connections hstep
  intro index hindex later hlater
  by_cases hevent : ∃ source challenge, event = .connect source challenge
  · obtain ⟨source, challenge, rfl⟩ := hevent
    obtain rfl := Option.some.inj (hmap.2.1.symm.trans hindex)
    rw [addrAt_connect hstep, if_neg (by omega), addrAt, List.getElem?_eq_none (by omega),
      Option.map_none]
  · have hadvances :=
      advances_step hstep fun source challenge heq => hevent ⟨source, challenge, heq⟩
    rw [hadvances.addrAt]
    refine h index ?_ later hlater
    cases event with
    | connect source challenge => exact absurd ⟨source, challenge, rfl⟩ hevent
    | insert =>
        obtain ⟨_, _, -, -, -, hnone⟩ := hmap
        exact absurd (hnone.symm.trans hindex) (by simp)
    | remove _ =>
        obtain ⟨_, -, -, hsame⟩ := hmap
        exact hsame ▸ hindex
    | _ => exact hmap.2 ▸ hindex

/-- A removal task does not cancel anything. -/
theorem Live.remove {self self' : Server Addr Session} {index i : Nat} {a : Addr}
    (h : self.Live a i) (hstep : self.step (.remove index) = some self') : self'.Live a i := by
  obtain ⟨task, hi, haddr, htoken⟩ := h
  simp only [step] at hstep
  split at hstep
  · split at hstep
    · obtain rfl := Option.some.inj hstep
      unfold Live
      rw [List.getElem?_modify, hi]
      by_cases heq : index = i
      · exact ⟨{ task with removal := .removed }, by simp [heq], haddr, htoken⟩
      · exact ⟨task, by simp [heq], haddr, htoken⟩
    · cases hstep
  · cases hstep

/-- The newest connection of every address keeps its entry throughout a run,
from its insertion on and while it is live, exactly when no removal task of
another connection runs for its address in the meantime. -/
theorem always_routed_iff {configuration : Configuration} {events : List (Event Addr)}
    {self : Server Addr Session} (hrun : Run.run step (new configuration) events = some self) :
    Run.Always step (new configuration : Server Addr Session) events Routed ↔
      Run.EachStep step (new configuration : Server Addr Session) events fun self event =>
        ∀ index a, event = .remove index → self.addrAt index = some a →
          ∀ i, self.Newest a i → self.inserting ≠ some i → ¬ self.Live a i := by
  have hempty : (new configuration : Server Addr Session).Routed := fun a i _ _ hlive =>
    absurd hlive.lt (by simp [new])
  have hnone : (new configuration : Server Addr Session).InsertsLast := nofun
  refine Run.always_iff_eachStep (I := InsertsLast) (fun _ _ _ => insertsLast_step) ?_ hnone
    hempty hrun
  intro self event self' hlast hrouted hstep
  have hmap := step_connections hstep
  cases event with
  | connect source challenge =>
      obtain ⟨hidle, hinserting, hconnections⟩ := hmap
      refine iff_of_true (fun a i hnewest hinserted hlive => ?_) nofun
      have hne : i ≠ self.spawned.length := fun heq => hinserted (heq ▸ hinserting)
      have hlive' := ((live_connect hstep).mp hlive).resolve_right fun h => hne h.2
      have hnewest' : self.Newest a i := by
        refine ⟨hlive'.addrAt, fun later hlater haddr => ?_⟩
        have hold := hnewest.2 later hlater
        rw [addrAt_connect hstep] at hold
        split at hold
        case isTrue heq =>
          rw [addrAt, List.getElem?_eq_none (by omega)] at haddr
          cases haddr
        case isFalse => exact hold haddr
      rw [hconnections]
      exact hrouted a i hnewest' (by simp [hidle]) hlive'
  | insert =>
      obtain ⟨index, a₀, hinserting, haddr, hconnections, -⟩ := hmap
      have hadvances := advances_step hstep nofun
      refine iff_of_true (fun a i hnewest _ hlive => ?_) nofun
      have hnewest' := hadvances.newest.mp hnewest
      rw [hconnections]
      by_cases ha : a = a₀
      · subst ha
        rcases Nat.lt_trichotomy i index with hlt | rfl | hgt
        · exact absurd haddr (hnewest'.2 index hlt)
        · rw [Function.update_self]
        · exact absurd (hnewest'.1.symm.trans (hlast index hinserting i hgt)) (by simp)
      · rw [Function.update_of_ne ha]
        refine hrouted a i hnewest' (fun heq => ha ?_) (hadvances.live hlive)
        obtain rfl := Option.some.inj (hinserting.symm.trans heq)
        exact Option.some.inj (hnewest'.1.symm.trans haddr)
  | remove index =>
      obtain ⟨a₀, haddr, hconnections, hinserting⟩ := hmap
      have hadvances := advances_step hstep nofun
      constructor
      · intro h index' a heq haddr' i hnewest hinserted hlive
        obtain rfl := Event.remove.inj heq
        obtain rfl := Option.some.inj (haddr.symm.trans haddr')
        have hentry := h a₀ i (hadvances.newest.mpr hnewest) (hinserting ▸ hinserted)
          (hlive.remove hstep)
        rw [hconnections, Function.update_self] at hentry
        cases hentry
      · intro h a i hnewest hinserted hlive
        have hnewest' := hadvances.newest.mp hnewest
        have hlive' := hadvances.live hlive
        rw [hinserting] at hinserted
        have ha : a ≠ a₀ := by
          rintro rfl
          exact h index a rfl haddr i hnewest' hinserted hlive'
        rw [hconnections, Function.update_of_ne ha]
        exact hrouted a i hnewest' hinserted hlive'
  | _ =>
      have hadvances := advances_step hstep nofun
      refine iff_of_true (fun a i hnewest hinserted hlive => ?_) nofun
      rw [hmap.1]
      exact hrouted a i (hadvances.newest.mp hnewest) (hmap.2 ▸ hinserted) (hadvances.live hlive)

end

/-- The condition, at the client that connects twice. -/
theorem always_routed_once :
    Run.Always step (new Configuration.loadDefault : Server Nat Unit) connectedTwice Routed ↔
      Run.EachStep step (new Configuration.loadDefault : Server Nat Unit) connectedTwice
        fun self event => ∀ index a, event = .remove index → self.addrAt index = some a →
          ∀ i, self.Newest a i → self.inserting ≠ some i → ¬ self.Live a i :=
  always_routed_iff rfl

/-- The timer of the first connection removes the entry of the second. -/
theorem connectedTwice_not_routed : ∃ self : Server Nat Unit,
    Run.run step (new Configuration.loadDefault) (connectedTwice ++ [.timeout 0, .remove 0]) =
      some self ∧ ¬ self.Routed := by
  refine ⟨_, rfl, fun h => ?_⟩
  have hentry := h 0 1 ⟨rfl, ?_⟩ (by decide) ⟨_, rfl, rfl, rfl⟩
  · exact absurd hentry (by decide)
  · intro later hlater
    rw [addrAt, List.getElem?_eq_none (by exact hlater)]
    simp

section

variable [DecidableEq Addr]

/-! ## The entry of a dead connection -/

section

omit [DecidableEq Addr]

/-- The removal task of the connection at `index` has finished. -/
def Removed (self : Server Addr Session) (index : Nat) : Prop :=
  ∃ task, self.spawned[index]? = some task ∧ task.removal = .removed

/-- No connection whose removal task has finished is in the map. -/
def Gone (self : Server Addr Session) : Prop :=
  ∀ a index, self.Removed index → self.connections a ≠ some index

/-- Every entry of the map is under the address of its connection. -/
def Filed (self : Server Addr Session) : Prop :=
  ∀ a index, self.connections a = some index → self.addrAt index = some a

/-- An update that leaves the state of the removal leaves which tasks have removed
their connection. -/
theorem removed_modify {self self' : Server Addr Session} {index i : Nat}
    {f : Spawned Addr Session → Spawned Addr Session}
    (hself' : self'.spawned = self.spawned.modify index f)
    (hf : ∀ task, self.spawned[index]? = some task →
      ((f task).removal = .removed ↔ task.removal = .removed)) :
    self'.Removed i ↔ self.Removed i := by
  unfold Removed
  rw [hself', List.getElem?_modify]
  cases hi : self.spawned[i]? with
  | none => simp
  | some task =>
      by_cases heq : index = i
      · subst heq
        simpa using hf task hi
      · simp [heq]

end

variable [QuickplaySession Session] [BitstreamIo] [Crc]

omit [DecidableEq Addr] in
/-- A round of a worker leaves its removal task. -/
theorem work_removal (foundServer : Nat → Option String) (task : Spawned Addr Session) :
    (task.work foundServer).removal = task.removal := by
  unfold Spawned.work
  split
  · rfl
  · split <;> rfl

/-- A removal task finishes in its own step, and stays finished. -/
theorem removed_step {self self' : Server Addr Session} {event : Event Addr} {i : Nat}
    (hstep : self.step event = some self') :
    self'.Removed i ↔ self.Removed i ∨ event = .remove i := by
  cases event with
  | connect source challenge =>
      simp only [step] at hstep
      split at hstep
      case isFalse => cases hstep
      case isTrue =>
        obtain rfl := Option.some.inj hstep
        unfold Removed
        rcases Nat.lt_trichotomy i self.spawned.length with hlt | rfl | hgt
        · simp [List.getElem?_append_left hlt]
        · simp
        · rw [List.getElem?_eq_none (by simp; omega), List.getElem?_eq_none (by omega)]
          simp
  | insert =>
      simp only [step] at hstep
      split at hstep
      · split at hstep
        · obtain rfl := Option.some.inj hstep
          exact (or_iff_left (by simp)).symm
        · cases hstep
      · cases hstep
  | packet source data =>
      rw [or_iff_left (by simp)]
      simp only [step] at hstep
      split at hstep
      · split at hstep
        · obtain rfl := Option.some.inj hstep
          refine removed_modify rfl fun task _ => ?_
          unfold Spawned.send
          split <;> exact Iff.rfl
        · obtain rfl := Option.some.inj hstep
          exact Iff.rfl
      · cases hstep
  | work index foundServer =>
      obtain ⟨-, rfl⟩ := onTask_eq_some.mp hstep
      rw [or_iff_left (by simp)]
      exact removed_modify rfl fun task _ => by rw [work_removal]
  | timeout index =>
      obtain ⟨⟨task, hindex, hready⟩, rfl⟩ := onTask_eq_some.mp hstep
      rw [or_iff_left (by simp)]
      refine removed_modify rfl fun task' htask' => ?_
      obtain rfl := Option.some.inj (hindex.symm.trans htask')
      rw [decide_eq_true_iff] at hready
      simp [Spawned.cancel, hready]
  | cancelled index =>
      obtain ⟨⟨task, hindex, hready⟩, rfl⟩ := onTask_eq_some.mp hstep
      rw [or_iff_left (by simp)]
      refine removed_modify rfl fun task' htask' => ?_
      obtain rfl := Option.some.inj (hindex.symm.trans htask')
      rw [Bool.and_eq_true, decide_eq_true_iff] at hready
      simp [hready.1]
  | remove index =>
      simp only [step] at hstep
      split at hstep
      case h_2 => cases hstep
      case h_1 task hindex =>
        split at hstep
        case isFalse => cases hstep
        case isTrue =>
          obtain rfl := Option.some.inj hstep
          unfold Removed
          rw [List.getElem?_modify]
          by_cases heq : index = i
          · subst heq
            simp [hindex]
          · cases self.spawned[i]? <;> simp [heq]

/-- Each entry of the map stays one of the address that it is filed under. -/
theorem filed_step {self self' : Server Addr Session} {event : Event Addr} (h : self.Filed)
    (hstep : self.step event = some self') : self'.Filed := by
  have hmap := step_connections hstep
  intro a index hentry
  by_cases hevent : ∃ source challenge, event = .connect source challenge
  · obtain ⟨source, challenge, rfl⟩ := hevent
    have haddr := h a index (hmap.2.2 ▸ hentry)
    rw [addrAt_connect hstep]
    split
    case isTrue heq =>
      rw [heq, addrAt, List.getElem?_eq_none (Nat.le_refl _)] at haddr
      cases haddr
    case isFalse => exact haddr
  · have hadvances :=
      advances_step hstep fun source challenge heq => hevent ⟨source, challenge, heq⟩
    rw [hadvances.addrAt]
    cases event with
    | connect source challenge => exact absurd ⟨source, challenge, rfl⟩ hevent
    | insert =>
        obtain ⟨index', a', -, haddr, hconnections, -⟩ := hmap
        rw [hconnections] at hentry
        by_cases ha : a = a'
        · subst ha
          rw [Function.update_self, Option.some.injEq] at hentry
          exact hentry ▸ haddr
        · rw [Function.update_of_ne ha] at hentry
          exact h a index hentry
    | remove index' =>
        obtain ⟨a', -, hconnections, -⟩ := hmap
        rw [hconnections] at hentry
        by_cases ha : a = a'
        · subst ha
          simp at hentry
        · rw [Function.update_of_ne ha] at hentry
          exact h a index hentry
    | _ => exact h a index (hmap.1 ▸ hentry)

/-- No connection is in the map from the end of its removal task on, throughout
a run, exactly when no connection is inserted after its removal task. -/
theorem always_gone_iff {configuration : Configuration} {events : List (Event Addr)}
    {self : Server Addr Session} (hrun : Run.run step (new configuration) events = some self) :
    Run.Always step (new configuration : Server Addr Session) events Gone ↔
      Run.EachStep step (new configuration : Server Addr Session) events fun self event =>
        ∀ index, event = .insert → self.inserting = some index → ¬ self.Removed index := by
  have hempty : (new configuration : Server Addr Session).Gone := by
    intro a index hremoved hentry
    simp [new] at hentry
  have hfiled : (new configuration : Server Addr Session).Filed := by
    intro a index hentry
    simp [new] at hentry
  refine Run.always_iff_eachStep (I := Filed) (fun _ _ _ => filed_step) ?_ hfiled hempty hrun
  intro self event self' hfiled hgone hstep
  have hmap := step_connections hstep
  have hremoved := fun i => removed_step (i := i) hstep
  cases event with
  | insert =>
      obtain ⟨index, a₀, hinserting, -, hconnections, -⟩ := hmap
      constructor
      · intro h index' _ hinserting' hgone'
        obtain rfl := Option.some.inj (hinserting.symm.trans hinserting')
        refine h a₀ index ((hremoved index).mpr (.inl hgone')) ?_
        rw [hconnections, Function.update_self]
      · intro h a i hi hentry
        have hi' := ((hremoved i).mp hi).resolve_right (by simp)
        rw [hconnections] at hentry
        by_cases ha : a = a₀
        · subst ha
          rw [Function.update_self, Option.some.injEq] at hentry
          exact h index rfl hinserting (hentry ▸ hi')
        · rw [Function.update_of_ne ha] at hentry
          exact hgone a i hi' hentry
  | remove index =>
      obtain ⟨a₀, haddr, hconnections, -⟩ := hmap
      refine iff_of_true (fun a i hi hentry => ?_) (by simp)
      rw [hconnections] at hentry
      by_cases ha : a = a₀
      · subst ha
        simp at hentry
      · rw [Function.update_of_ne ha] at hentry
        obtain hi' | heq := (hremoved i).mp hi
        · exact hgone a i hi' hentry
        · obtain rfl := Event.remove.inj heq
          exact ha (Option.some.inj ((hfiled a index hentry).symm.trans haddr))
  | connect source challenge =>
      refine iff_of_true (fun a i hi hentry => ?_) (by simp)
      exact hgone a i (((hremoved i).mp hi).resolve_right (by simp)) (hmap.2.2 ▸ hentry)
  | _ =>
      refine iff_of_true (fun a i hi hentry => ?_) (by simp)
      exact hgone a i (((hremoved i).mp hi).resolve_right (by simp)) (hmap.1 ▸ hentry)

end

/-- A client that connects once and whose timer runs out before it is inserted. -/
def removedFirst : List (Event Nat) := [.connect 0 5#32, .timeout 0, .remove 0, .insert]

/-- The condition, at the one client that connects. -/
theorem always_gone_once :
    Run.Always step (new Configuration.loadDefault : Server Nat Unit) [.connect 0 5#32, .insert]
        Gone ↔
      Run.EachStep step (new Configuration.loadDefault : Server Nat Unit)
        [.connect 0 5#32, .insert] fun self event =>
          ∀ index, event = .insert → self.inserting = some index → ¬ self.Removed index :=
  always_gone_iff rfl

/-- The removal task runs before the entry is there, and the entry stays. -/
theorem removedFirst_not_gone : ∃ self : Server Nat Unit,
    Run.run step (new Configuration.loadDefault) removedFirst = some self ∧ ¬ self.Gone :=
  ⟨_, rfl, fun h => h 0 0 ⟨_, rfl, rfl⟩ rfl⟩

end Server

end QuickplayServer
