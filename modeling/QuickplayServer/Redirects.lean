import QuickplayServer.Quickplay.FindServer
import QuickplayServer.Workers

/-!
# QuickplayServer.Redirects

Where clients are sent to.

The server lists come from the two files, and the answers to clients from the
server lists.  So a redirect that waits to be sent goes back to a record of a
file that some earlier round of `run_background` has read: it is the best one
for the preferences of this client.
-/

namespace QuickplayServer

/-! ## The answer of `find_server` -/

namespace Quickplay.QuickplaySession

variable {Addr F : Type} [F32 F] [SocketAddr Addr]

variable (Addr) in
/-- The record qualifies, and no other one that does has a greater score. -/
structure Best (session : QuickplaySession) (schema : Schema) (rawServers : List (ServerInfoJson F))
    (raw : ServerInfoJson F) : Prop where
  mem : raw ∈ rawServers
  qualifies : session.Qualifies Addr schema raw
  greatest : ∀ other ∈ rawServers, session.Qualifies Addr schema other →
    session.rawScore other ≤ session.rawScore raw

theorem best_of_findServer {session : QuickplaySession} {schema : Schema}
    {rawServers : List (ServerInfoJson F)} {addr : Addr}
    (h : session.findServer (parseServerInfos rawServers schema) = some addr) :
    ∃ raw, session.Best Addr schema rawServers raw ∧ SocketAddr.fromStr raw.addr = some addr := by
  obtain ⟨server, hfirst, rfl⟩ := findServer_eq_some_iff.mp h
  have hmem := hfirst.mem
  rw [filter_parseServerInfos, List.mem_filterMap] at hmem
  obtain ⟨raw, hraw, hpick⟩ := hmem
  obtain ⟨hqualifies, hparse⟩ := pick_eq_some_iff.mp hpick
  refine ⟨raw, ⟨hraw, hqualifies, fun other hother hq => ?_⟩, parseServerInfo_addr hparse⟩
  obtain ⟨server', hparse'⟩ := hq.parse
  have hmem' : server' ∈ (parseServerInfos rawServers schema : List (ServerInfo Addr F)).filter
      session.eligible := by
    rw [filter_parseServerInfos, List.mem_filterMap]
    exact ⟨other, hother, pick_eq_some_iff.mpr ⟨hq, hparse'⟩⟩
  rw [← rawScore_eq hparse, ← rawScore_eq hparse']
  obtain ⟨pre, post, heq, hpre, hpost⟩ := hfirst
  rw [heq, List.mem_append, List.mem_cons] at hmem'
  obtain hmem' | rfl | hmem' := hmem'
  · exact (hpre server' hmem').le
  · exact le_refl _
  · exact hpost server' hmem'

end Quickplay.QuickplaySession

namespace Service

open Connection (IsDisconnect rounds after Round)
open QuickplayGlobal (Finds runBackground runBackgroundRound_cases)

variable {Addr F SnapError : Type}

section

variable [DecidableEq Addr] [ToString Addr] [AddressHasher Addr] [SocketAddr Addr] [F32 F]
variable [SerdeJson F] [Snap SnapError] [BitstreamIo] [Crc]

/-! ## The lists in force -/

def refreshOf : Input Addr → Option Refresh
  | .refresh refresh => some refresh
  | _ => none

variable (Addr) in
/-- The list that an input has put into force. -/
def Published (configuration : Configuration) (inputs : List (Input Addr))
    (serverList : List (ServerInfo Addr F)) : Prop :=
  ∃ refresh mapGamemodes, ∃ rawServers : List (ServerInfoJson F), .refresh refresh ∈ inputs ∧
    Finds configuration refresh mapGamemodes rawServers ∧
    serverList = parseServerInfos rawServers (parseSchema mapGamemodes)

/-- The list in force is what `run_background` has made of the files, and every
list that has been in force comes from them. -/
theorem run_published {configuration : Configuration} {inputs : List (Input Addr)}
    {self : Service Addr F} (hrun : Run.run step (new configuration) inputs = some self) :
    self.serverLists.head? = some (runBackground configuration (inputs.filterMap refreshOf)) ∧
      ∀ serverList ∈ self.serverLists, serverList = [] ∨
        Published Addr configuration inputs serverList := by
  refine Run.history_induction (I := fun inputs (self : Service Addr F) =>
    self.serverLists.head? = some (runBackground configuration (inputs.filterMap refreshOf)) ∧
      ∀ serverList ∈ self.serverLists, serverList = [] ∨
        Published Addr configuration inputs serverList) ?_ ⟨rfl, by simp [new]⟩ hrun
  rintro inputs self input self' hrun ⟨hhead, hlists⟩ hstep
  have hconfiguration := (run_clients hrun).1
  have hmono : ∀ {serverList : List (ServerInfo Addr F)}, serverList = [] ∨
      Published Addr configuration inputs serverList → serverList = [] ∨
      Published Addr configuration (inputs ++ [input]) serverList := by
    refine fun h => h.imp_right ?_
    rintro ⟨refresh, mapGamemodes, rawServers, hmem, hfinds, heq⟩
    exact ⟨refresh, mapGamemodes, rawServers, List.mem_append_left _ hmem, hfinds, heq⟩
  have hsame : refreshOf input = none → self'.serverLists = self.serverLists →
      self'.serverLists.head? =
          some (runBackground configuration ((inputs ++ [input]).filterMap refreshOf)) ∧
        ∀ serverList ∈ self'.serverLists, serverList = [] ∨
          Published Addr configuration (inputs ++ [input]) serverList := by
    intro hnone heq
    have hfilter : [input].filterMap refreshOf = [] := by simp [hnone]
    rw [heq, List.filterMap_append, hfilter, List.append_nil]
    exact ⟨hhead, fun serverList hmem => hmono (hlists serverList hmem)⟩
  cases step_cases hstep with
  | accept => exact hsame rfl rfl
  | answer => exact hsame rfl rfl
  | regular => exact hsame rfl rfl
  | drop => exact hsame rfl rfl
  | work => exact hsame rfl rfl
  | task => exact hsame rfl rfl
  | refresh refresh =>
      rw [hconfiguration]
      have hcurrent : self.serverLists.headD [] =
          runBackground configuration (inputs.filterMap refreshOf) := by
        rw [List.headD_eq_head?_getD, hhead, Option.getD_some]
      rw [hcurrent]
      refine ⟨?_, List.forall_mem_cons.mpr ⟨?_, fun serverList hmem =>
        hmono (hlists serverList hmem)⟩⟩
      · rw [List.filterMap_append, List.head?_cons]
        exact congrArg some (List.foldl_concat _ _ _ _).symm
      · obtain ⟨mapGamemodes, rawServers, hfinds, heq⟩ | ⟨-, heq⟩ :=
          runBackgroundRound_cases configuration
            (runBackground configuration (inputs.filterMap refreshOf) : List (ServerInfo Addr F))
            refresh
        · exact .inr ⟨refresh, mapGamemodes, rawServers, by simp, hfinds, heq⟩
        · rw [heq]
          exact hmono (hlists _ (List.mem_of_head? hhead))

/-- The list in force is that of the last round that found both files, and
empty before the first such round. -/
theorem run_inForce {configuration : Configuration} {inputs : List (Input Addr)}
    {self : Service Addr F} (hrun : Run.run step (new configuration) inputs = some self) :
    ∃ serverList, self.serverLists.head? = some serverList ∧
      ((∃ before refresh later mapGamemodes, ∃ rawServers : List (ServerInfoJson F),
        inputs.filterMap refreshOf = before ++ refresh :: later ∧
        Finds configuration refresh mapGamemodes rawServers ∧
        (∀ next ∈ later, ∀ mapGamemodes, ∀ rawServers : List (ServerInfoJson F),
          ¬ Finds configuration next mapGamemodes rawServers) ∧
        serverList = parseServerInfos rawServers (parseSchema mapGamemodes)) ∨
      (∀ refresh ∈ inputs.filterMap refreshOf, ∀ mapGamemodes,
        ∀ rawServers : List (ServerInfoJson F),
        ¬ Finds configuration refresh mapGamemodes rawServers) ∧ serverList = []) :=
  ⟨_, (run_published hrun).1, QuickplayGlobal.runBackground_cases configuration _⟩

/-! ## The redirects -/

/-- The transfer is the answer of this round to a `SignonState` message: it sends
the client to the best record for the preferences that the message met, of those
in the files that some round of `run_background` has read. -/
structure RedirectedBy (configuration : Configuration) (inputs : List (Input Addr))
    (round : Round Addr Quickplay.QuickplaySession) (stream : OutgoingReliableData)
    (addr : Addr) : Prop where
  asked : ∃ message, round.message = .signonState message
  found : round.foundServer = some (toString addr)
  answer : .stringCmd { command := "redirect " ++ toString addr } ∈ round.reply
  encodes : NetChannel.encodeMessages [.stringCmd { command := "redirect " ++ toString addr }] =
    .ok stream.data
  best : ∃ refresh mapGamemodes, ∃ rawServers : List (ServerInfoJson F), ∃ raw,
    .refresh refresh ∈ inputs ∧ Finds configuration refresh mapGamemodes rawServers ∧
    round.connection.quickplay.Best Addr (parseSchema mapGamemodes) rawServers raw ∧
    SocketAddr.fromStr raw.addr = some addr

omit [DecidableEq Addr] [AddressHasher Addr] [Crc] in
/-- A round that asks a list of the files and queues an answer refuses the client
or redirects it. -/
theorem redirectedBy_of_reply {configuration : Configuration} {inputs : List (Input Addr)}
    {round : Round Addr Quickplay.QuickplaySession} {serverList : List (ServerInfo Addr F)}
    (hlist : serverList = [] ∨ Published Addr configuration inputs serverList)
    (hasks : round.AsksOn serverList) {reply : Message} (hreply : reply ∈ round.reply)
    {stream : OutgoingReliableData}
    (hencode : NetChannel.encodeMessages [reply] = .ok stream.data) :
    IsDisconnect stream ∨ ∃ addr, RedirectedBy (F := F) configuration inputs round stream addr := by
  have hanswer := hreply
  unfold Round.reply at hreply
  split at hreply
  case h_1 message hmessage =>
    split at hreply
    case h_1 destinationServer hfoundServer =>
      cases hreply
      rw [Round.AsksOn, hfoundServer, Connection.findServer] at hasks
      obtain ⟨addr, hfound, rfl⟩ := Option.map_eq_some_iff.mp hasks.symm
      refine .inr ⟨addr, ⟨message, hmessage⟩, hfoundServer, hanswer, hencode, ?_⟩
      obtain rfl | ⟨refresh, mapGamemodes, rawServers, hmem, hfinds, rfl⟩ := hlist
      · cases hfound
      · obtain ⟨raw, hbest, haddr⟩ := Quickplay.QuickplaySession.best_of_findServer hfound
        exact ⟨refresh, mapGamemodes, rawServers, raw, hmem, hfinds, hbest, haddr⟩
    case h_2 =>
      cases hreply
      exact .inl ⟨_, hencode⟩
  case h_2 =>
    split at hreply
    case h_1 => cases hreply
    case h_2 =>
      cases hreply
      exact .inl ⟨_, hencode⟩
  case h_3 => cases hreply

/-- What waits to be sent to a client either disconnects it or is the answer to
one of its `SignonState` messages, which redirects it to the best record for the
preferences that this message met, in files that were read before. -/
theorem run_redirects {configuration : Configuration} {inputs : List (Input Addr)}
    {self : Service Addr F} (hrun : Run.run step (new configuration) inputs = some self)
    {index : Nat} {task : Spawned Addr Quickplay.QuickplaySession}
    (hindex : self.server.spawned[index]? = some task) (hworking : task.working = true) :
    ∃ events, Lives configuration self.serverLists inputs index task.connection events ∧
      ∀ stream ∈ task.connection.netchan.outgoingReliableData 0, IsDisconnect stream ∨
        ∃ round ∈ rounds events (start configuration task.connection.clientAddr),
          ∃ addr, RedirectedBy (F := F) configuration inputs round stream addr := by
  obtain ⟨events, hlives⟩ := run_alive hrun index task hindex hworking
  refine ⟨events, hlives, ?_⟩
  have hcalls := Connection.calls_queues hlives.survives
    fun round hround reply hreply data hdata =>
      show ∃ round ∈ rounds events (start configuration task.connection.clientAddr),
        ∃ reply ∈ round.reply, NetChannel.encodeMessages [reply] = .ok data
      from ⟨round, hround, reply, hreply, hdata⟩
  have hchannel : NetChannel.run _ _ = some task.connection.netchan :=
    hlives.same.netchan ▸ Connection.run_calls hlives.survives
  have hqueued := (NetChannel.run_queued hcalls hchannel).1.messages
  intro stream hstream
  obtain ⟨round, hround, reply, hreply, hencode⟩ := hqueued stream hstream
  obtain ⟨serverList, hlist, hasks⟩ := hlives.asked round hround
  have hanswered :=
    redirectedBy_of_reply ((run_published hrun).2 serverList hlist) hasks hreply hencode
  exact hanswered.imp_right fun hredirected => ⟨round, hround, hredirected⟩

end

theorem run_inForce_askingClient : ∃ (self : Service (Fin 16) ℚ) (serverList : _),
    Run.run step (new .loadDefault) askingClient = some self ∧
      self.serverLists.head? = some serverList := by
  obtain ⟨self, task, hrun, -⟩ := exists_askingClient
  obtain ⟨serverList, hhead, -⟩ := run_inForce hrun
  exact ⟨self, serverList, hrun, hhead⟩

/-- The one answer that waits sends the client to the one server that there is. -/
theorem run_redirects_askingClient : ∃ (self : Service (Fin 16) ℚ) (task : _) (events : _)
    (stream : _), Run.run step (new .loadDefault) askingClient = some self ∧
      self.server.spawned[0]? = some task ∧
      task.connection.netchan.outgoingReliableData 0 = [stream] ∧
      ∃ round ∈ rounds events (start .loadDefault task.connection.clientAddr),
        ∃ addr, RedirectedBy (F := ℚ) .loadDefault askingClient round stream addr := by
  have hvalues : ((Run.run step (new .loadDefault : Service (Fin 16) ℚ) askingClient).bind
      (·.server.spawned[0]?)).map (fun task => (task.working,
        (task.connection.netchan.outgoingReliableData 0).map (·.data))) =
      some (true, [[132, 92, 25, 89, 154, 92, 217, 24, 29, 72, 14, 0]]) := by
    decide +kernel
  have hencode : NetChannel.encodeMessages [.stringCmd { command := "redirect 9" }] =
      .ok [132, 92, 25, 89, 154, 92, 217, 24, 29, 72, 14, 0] := by
    decide +kernel
  obtain ⟨task, htask, heq⟩ := Option.map_eq_some_iff.mp hvalues
  obtain ⟨self, hrun, hindex⟩ := Option.bind_eq_some_iff.mp htask
  obtain ⟨hworking, hqueue⟩ := Prod.mk.inj heq
  obtain ⟨stream, hstream, hdata⟩ := List.map_eq_singleton_iff.mp hqueue
  obtain ⟨events, -, hredirects⟩ := run_redirects hrun hindex hworking
  obtain hdisconnect | hredirected := hredirects stream (by simp [hstream])
  · exact absurd hdisconnect (Connection.not_isDisconnect_stringCmd (hdata ▸ hencode))
  · exact ⟨self, task, events, stream, hrun, hindex, hstream, hredirected⟩

end Service

end QuickplayServer
