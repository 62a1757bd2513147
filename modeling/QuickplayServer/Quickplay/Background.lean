import QuickplayServer.Configuration
import QuickplayServer.Quickplay.Global

/-!
# QuickplayServer.Quickplay.Background

How the server list is refreshed (`run_background` in
`src/quickplay/global.rs`).

A round reads the schema and then the server list.  The file system may change
between the two, and so may the files from round to round.  `serde_json` is a
parameter.
-/

namespace QuickplayServer

/-- `serde_json::from_slice`, for the two files. -/
class SerdeJson (F : Type) where
  /-- `map_gamemodes` of `SchemaOuterJson`. -/
  schema : List UInt8 → Option (String → Option String)
  serverInfos : List UInt8 → Option (List (ServerInfoJson F))

/-- What `tokio::fs::read` returns for a path. -/
abbrev FileSystem : Type := String → Option (List UInt8)

/-- The file system as the two reads of a round find it. -/
structure Refresh where
  forSchema : FileSystem
  forServerInfo : FileSystem

namespace QuickplayGlobal

variable {Addr F : Type} [SerdeJson F]

def parseSchemaFromJson (F : Type) [SerdeJson F] (schemaData : List UInt8) : Option Schema :=
  (SerdeJson.schema F schemaData).map parseSchema

def updateSchema (F : Type) [SerdeJson F] (configuration : Configuration) (files : FileSystem) :
    Option Schema := do
  let schemaData ← files configuration.quickplay.schemaPath
  parseSchemaFromJson F schemaData

variable [SocketAddr Addr]

def parseServerInfosFromJson (data : List UInt8) (schema : Schema) :
    Option (List (ServerInfo Addr F)) := do
  let rawServers ← SerdeJson.serverInfos data
  some (parseServerInfos rawServers schema)

def updateServerInfo (configuration : Configuration) (files : FileSystem) (schema : Schema) :
    Option (List (ServerInfo Addr F)) := do
  let serverListData ← files configuration.quickplay.serverListPath
  parseServerInfosFromJson serverListData schema

/-- A round of the loop of `run_background`; an error leaves the list as it is. -/
def runBackgroundRound (configuration : Configuration) (servers : List (ServerInfo Addr F))
    (refresh : Refresh) : List (ServerInfo Addr F) :=
  match updateSchema F configuration refresh.forSchema with
  | some schema =>
      match updateServerInfo configuration refresh.forServerInfo schema with
      | some serverList => serverList
      | none => servers
  | none => servers

/-- The list after some rounds. -/
def runBackground (configuration : Configuration) (refreshes : List Refresh) :
    List (ServerInfo Addr F) :=
  refreshes.foldl (runBackgroundRound configuration) []

/-! ## The list in force -/

/-- A round finds a schema and a server list that can both be read. -/
structure Finds (configuration : Configuration) (refresh : Refresh)
    (mapGamemodes : String → Option String) (rawServers : List (ServerInfoJson F)) : Prop where
  schema : (refresh.forSchema configuration.quickplay.schemaPath).bind (SerdeJson.schema F) =
    some mapGamemodes
  serverInfos : (refresh.forServerInfo configuration.quickplay.serverListPath).bind
    SerdeJson.serverInfos = some rawServers

omit [SocketAddr Addr] in
theorem updateSchema_eq (configuration : Configuration) (files : FileSystem) :
    updateSchema F configuration files =
      ((files configuration.quickplay.schemaPath).bind (SerdeJson.schema F)).map parseSchema := by
  rw [Option.map_bind]
  rfl

theorem updateServerInfo_eq (configuration : Configuration) (files : FileSystem) (schema : Schema) :
    (updateServerInfo configuration files schema : Option (List (ServerInfo Addr F))) =
      ((files configuration.quickplay.serverListPath).bind SerdeJson.serverInfos).map
        (parseServerInfos · schema) := by
  rw [Option.map_bind]
  refine congrArg _ (funext fun data => ?_)
  cases h : (SerdeJson.serverInfos data : Option (List (ServerInfoJson F))) <;>
    simp [parseServerInfosFromJson, h]

/-- A round puts its own list into force, made with its own schema, or none at all. -/
theorem runBackgroundRound_cases (configuration : Configuration)
    (servers : List (ServerInfo Addr F)) (refresh : Refresh) :
    (∃ mapGamemodes, ∃ rawServers : List (ServerInfoJson F),
      Finds configuration refresh mapGamemodes rawServers ∧
      runBackgroundRound configuration servers refresh =
        parseServerInfos rawServers (parseSchema mapGamemodes)) ∨
    (∀ mapGamemodes, ∀ rawServers : List (ServerInfoJson F),
      ¬ Finds configuration refresh mapGamemodes rawServers) ∧
      runBackgroundRound configuration servers refresh = servers := by
  unfold runBackgroundRound
  rw [updateSchema_eq]
  cases hschema :
      (refresh.forSchema configuration.quickplay.schemaPath).bind (SerdeJson.schema F) with
  | none =>
      refine .inr ⟨fun mapGamemodes rawServers h => ?_, rfl⟩
      cases hschema.symm.trans h.schema
  | some mapGamemodes =>
      rw [Option.map_some]
      dsimp only
      rw [updateServerInfo_eq]
      cases hservers : (refresh.forServerInfo configuration.quickplay.serverListPath).bind
          (SerdeJson.serverInfos (F := F)) with
      | none =>
          refine .inr ⟨fun mapGamemodes rawServers h => ?_, rfl⟩
          cases hservers.symm.trans h.serverInfos
      | some rawServers => exact .inl ⟨mapGamemodes, rawServers, ⟨hschema, hservers⟩, rfl⟩

/-- The list in force is that of the last round that found both files, and
empty before the first such round. -/
theorem runBackground_cases (configuration : Configuration) (refreshes : List Refresh) :
    (∃ before refresh after mapGamemodes, ∃ rawServers : List (ServerInfoJson F),
      refreshes = before ++ refresh :: after ∧
      Finds configuration refresh mapGamemodes rawServers ∧
      (∀ later ∈ after, ∀ mapGamemodes, ∀ rawServers : List (ServerInfoJson F),
        ¬ Finds configuration later mapGamemodes rawServers) ∧
      (runBackground configuration refreshes : List (ServerInfo Addr F)) =
        parseServerInfos rawServers (parseSchema mapGamemodes)) ∨
    (∀ refresh ∈ refreshes, ∀ mapGamemodes, ∀ rawServers : List (ServerInfoJson F),
      ¬ Finds configuration refresh mapGamemodes rawServers) ∧
      (runBackground configuration refreshes : List (ServerInfo Addr F)) = [] := by
  induction refreshes using List.reverseRecOn with
  | nil => exact .inr ⟨by simp, rfl⟩
  | append_singleton refreshes last ih =>
      have hlast : (runBackground configuration (refreshes ++ [last]) : List (ServerInfo Addr F)) =
          runBackgroundRound configuration (runBackground configuration refreshes) last :=
        List.foldl_concat _ _ _ _
      rw [hlast]
      obtain ⟨mapGamemodes, rawServers, hfinds, hround⟩ | ⟨hnone, hround⟩ :=
        runBackgroundRound_cases configuration
          (runBackground configuration refreshes : List (ServerInfo Addr F)) last
      · exact .inl ⟨refreshes, last, [], mapGamemodes, rawServers, rfl, hfinds, by simp, hround⟩
      · rw [hround]
        obtain ⟨before, refresh, after, mapGamemodes, rawServers, rfl, hfinds, hafter, heq⟩ |
          ⟨hbefore, heq⟩ := ih
        · refine .inl ⟨before, refresh, after ++ [last], mapGamemodes, rawServers, by simp, hfinds,
            ?_, heq⟩
          intro later hlater
          obtain hlater | hlater := List.mem_append.mp hlater
          · exact hafter later hlater
          · exact List.mem_singleton.mp hlater ▸ hnone
        · refine .inr ⟨fun refresh hrefresh => ?_, heq⟩
          obtain hrefresh | hrefresh := List.mem_append.mp hrefresh
          · exact hbefore refresh hrefresh
          · exact List.mem_singleton.mp hrefresh ▸ hnone

end QuickplayGlobal

end QuickplayServer
