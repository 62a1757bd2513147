import QuickplayServer.Net.NetChannel

/-!
# QuickplayServer.Connection

A connection of the server (`Connection` in `src/main.rs`): its channel, its
quickplay session, the packets that the server hands to it, and the round of
its background worker.
-/

namespace QuickplayServer

/-- What a connection uses of its quickplay session. -/
class QuickplaySession (Session : Type) where
  new : Configuration → Session
  /-- `update_preferences_from_convars`, with the text of its error. -/
  updatePreferencesFromConvars : List (String × String) → Session → Except String Unit × Session

structure Connection (Addr Session : Type) where
  clientAddr : Addr
  /-- The packets that were sent to `packet_receiver` and not received yet. -/
  packetReceiver : List (List UInt8)
  netchan : NetChannel
  /-- `cancel_token` is cancelled. -/
  cancelToken : Bool
  quickplay : Session

namespace Connection

variable {Addr Session : Type} [QuickplaySession Session]

def new (clientAddr : Addr) (netchan : NetChannel) (configuration : Configuration) :
    Connection Addr Session where
  clientAddr := clientAddr
  packetReceiver := []
  netchan := netchan
  cancelToken := false
  quickplay := QuickplaySession.new configuration

omit [QuickplaySession Session] in
/-- `cancel_token.cancel()`. -/
def cancel (self : Connection Addr Session) : Connection Addr Session :=
  { self with cancelToken := true }

/-- A call of a method of the channel. -/
def onNetchan {α : Type} (m : Method NetChannel Error α) :
    Method (Connection Addr Session) Error α := fun self =>
  let (outcome, netchan) := m self.netchan
  (outcome, { self with netchan })

variable [BitstreamIo]

/-- The round of `handle_packet` for one message; `foundServer` is what
`find_server` returns if it is asked. -/
def handleMessage (foundServer : Option String) (message : Message) :
    Method (Connection Addr Session) Error Unit :=
  match message with
  | .disconnect _ => modify cancel
  | .signonState _ =>
      let message :=
        match foundServer with
        | some destinationServer => .stringCmd { command := "redirect " ++ destinationServer }
        | none => .disconnect { reason := "No matches found with selected filter" }
      onNetchan (NetChannel.queueReliableMessages [message])
  | .setConVars message => do
      let (result, quickplay) :=
        QuickplaySession.updatePreferencesFromConvars message.convars (← get).quickplay
      modify fun self => { self with quickplay }
      match result with
      | .ok () => pure ()
      | .error reason => onNetchan (NetChannel.queueReliableMessages [.disconnect { reason }])
  | _ => pure ()

/-- `foundServer` is what `find_server` returns for each message of the packet. -/
def handlePacket [Crc] (foundServer : Nat → Option String) (data : List UInt8) :
    Method (Connection Addr Session) Error Unit := do
  let messages ← onNetchan (NetChannel.readPacket data)
  messages.zipIdx.forM fun (message, index) => handleMessage (foundServer index) message

/-- The part of `background_worker` that processes an incoming packet. -/
def processIncomingPacket [Crc] (foundServer : Nat → Option String) :
    Method (Connection Addr Session) Error Unit := do
  match (← get).packetReceiver with
  | packet :: packetReceiver => do
      modify fun self => { self with packetReceiver }
      let _ ← Method.attempt (handlePacket foundServer packet)
  | [] => pure ()

/-- One round of the loop of `background_worker`, and the packet that it sends. -/
def backgroundWorkerRound [Crc] (foundServer : Nat → Option String) :
    Method (Connection Addr Session) Error (Option (List UInt8)) := do
  processIncomingPacket foundServer
  -- allow the netchannel to send remaining reliable data
  Method.attempt (onNetchan (NetChannel.writePacket []))

/-! ## What a connection keeps -/

/-- A connection keeps its address and, once it is cancelled, stays cancelled. -/
def Follows (self self' : Connection Addr Session) : Prop :=
  self'.clientAddr = self.clientAddr ∧ (self.cancelToken = true → self'.cancelToken = true)

omit [QuickplaySession Session] [BitstreamIo] in
theorem Follows.refl (self : Connection Addr Session) : Follows self self := ⟨rfl, id⟩

instance : Std.Refl (Follows : Connection Addr Session → Connection Addr Session → Prop) :=
  ⟨Follows.refl⟩

instance : IsTrans (Connection Addr Session) Follows :=
  ⟨fun _ _ _ h h' => ⟨h'.1.trans h.1, fun hc => h'.2 (h.2 hc)⟩⟩

open Method (Relates)

omit [QuickplaySession Session] [BitstreamIo] in
theorem onNetchan_follows {α : Type} (m : Method NetChannel Error α) :
    Relates Follows (onNetchan m : Method (Connection Addr Session) Error α) :=
  fun _ => ⟨rfl, id⟩

theorem handleMessage_follows (foundServer : Option String) (message : Message) :
    Relates Follows
    (handleMessage foundServer message : Method (Connection Addr Session) Error Unit) := by
  cases message with
  | disconnect message => exact Relates.modify fun _ => ⟨rfl, fun _ => rfl⟩
  | signonState message => exact onNetchan_follows _
  | setConVars message =>
      refine Relates.bind Relates.get fun self => ?_
      refine Relates.bind (Relates.modify fun _ => ⟨rfl, id⟩) fun _ => ?_
      split
      · exact Relates.pure _
      · exact onNetchan_follows _
  | stringCmd message => exact Relates.pure _
  | print message => exact Relates.pure _

/-- A round of the worker, whatever it reads and however it ends. -/
theorem backgroundWorkerRound_follows [Crc] (foundServer : Nat → Option String) :
    Relates Follows
    (backgroundWorkerRound foundServer : Method (Connection Addr Session) Error _) := by
  have hhandle : ∀ packet, Relates Follows
      (handlePacket foundServer packet : Method (Connection Addr Session) Error Unit) :=
    fun packet =>
    Relates.bind (onNetchan_follows _) fun messages =>
      Relates.forM (fun x => handleMessage_follows _ _) _
  refine Relates.bind (Relates.bind Relates.get fun self => ?_) fun _ =>
    Relates.attempt (onNetchan_follows _)
  cases self.packetReceiver with
  | nil => exact Relates.pure _
  | cons packet packetReceiver =>
      refine Relates.bind (Relates.modify fun _ => ⟨rfl, id⟩) fun _ => ?_
      exact Relates.bind (Relates.attempt (hhandle packet)) fun _ => Relates.pure _

end Connection

end QuickplayServer
