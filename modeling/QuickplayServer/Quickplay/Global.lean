import QuickplayServer.Lib.Flags

/-!
# QuickplayServer.Quickplay.Global

The server list and the schema (`src/quickplay/global.rs`), behind their
deserialisation.  `SocketAddr::from_str` is a parameter, and so is `f32`,
which is taken as a total order: no score is a NaN.
-/

namespace QuickplayServer

/-- `SocketAddr`, as far as it is used. -/
class SocketAddr (Addr : Type) where
  fromStr : String → Option Addr

/-- `f32` without NaN. -/
class F32 (F : Type) extends LinearOrder F, Add F, Sub F, Mul F, Div F, Neg F, OfScientific F where
  /-- `From<u8>` and `From<u16>`. -/
  ofNat : Nat → F
  round : F → F

structure ServerInfoJson (F : Type) where
  addr : String
  players : UInt32
  maxPlayers : UInt32
  map : String
  /-- tags -/
  gametype : List String
  score : F
  ping : F

abbrev ServerTags := BitVec 8

namespace ServerTags

def NO_CRITS : ServerTags := 1#8 <<< 0
def NO_RESPAWN_TIMES : ServerTags := 1#8 <<< 1
def RESPAWN_TIMES : ServerTags := 1#8 <<< 2
def RTD : ServerTags := 1#8 <<< 3
def CLASS_LIMITS : ServerTags := 1#8 <<< 4
def CLASS_BANS : ServerTags := 1#8 <<< 5
def NO_OBJECTIVES : ServerTags := 1#8 <<< 6

end ServerTags

abbrev Gamemodes := BitVec 8

namespace Gamemodes

def PAYLOAD : Gamemodes := 1#8 <<< 0
def KOTH : Gamemodes := 1#8 <<< 1
def ATTACK_DEFENSE : Gamemodes := 1#8 <<< 2
def CTF : Gamemodes := 1#8 <<< 3
def CAPTURE_POINT : Gamemodes := 1#8 <<< 4
def PAYLOAD_RACE : Gamemodes := 1#8 <<< 5
def ALTERNATIVE : Gamemodes := 1#8 <<< 6
def ARENA : Gamemodes := 1#8 <<< 7

/-- Returns a single gamemode corresponding to the name provided in
`gamemode`, or none if there is no matching gamemode. -/
def fromStr (gamemode : String) : Option Gamemodes :=
  match gamemode with
  | "attack_defense" => some ATTACK_DEFENSE
  | "ctf" => some CTF
  | "capture_point" => some CAPTURE_POINT
  | "koth" => some KOTH
  | "payload" => some PAYLOAD
  | "payload_race" => some PAYLOAD_RACE
  | "arena" => some ARENA
  | "alternative" => some ALTERNATIVE
  | _ => none

end Gamemodes

/-- The keys of a hash map are looked up, so it is a function. -/
structure Schema where
  mapGamemodes : String → Option Gamemodes

/-- The gamemodes that the schema names; maps with other gamemodes are left out. -/
def parseSchema (mapGamemodes : String → Option String) : Schema where
  mapGamemodes map := (mapGamemodes map).bind Gamemodes.fromStr

structure ServerInfo (Addr F : Type) where
  addr : Addr
  players : UInt8
  maxPlayers : UInt8
  map : String
  gamemode : Gamemodes
  tags : ServerTags
  score : F
  ping : F

def stringTagsToFlags (strTags : List String) : ServerTags :=
  strTags.foldl (fun tags strTag =>
    match strTag with
    | "nocrits" => tags ||| ServerTags.NO_CRITS
    | "norespawntime" => tags ||| ServerTags.NO_RESPAWN_TIMES
    | "respawntimes" => tags ||| ServerTags.RESPAWN_TIMES
    | "rtd" => tags ||| ServerTags.RTD
    | "classlimits" => tags ||| ServerTags.CLASS_LIMITS
    | "classbans" => tags ||| ServerTags.CLASS_BANS
    | "nocap" => tags ||| ServerTags.NO_OBJECTIVES
    | _ => tags) 0

/-- `u8::try_from`. -/
def tryIntoU8 (value : UInt32) : Option UInt8 :=
  if value.toNat < 256 then some value.toUInt8 else none

variable {Addr F : Type} [SocketAddr Addr]

/-- The closure of `parse_server_infos_from_json`. -/
def parseServerInfo (schema : Schema) (rawServer : ServerInfoJson F) :
    Option (ServerInfo Addr F) := do
  let gamemode ← schema.mapGamemodes rawServer.map
  let addr ← SocketAddr.fromStr rawServer.addr
  let players ← tryIntoU8 rawServer.players
  let maxPlayers ← tryIntoU8 rawServer.maxPlayers
  some
    { addr
      players
      maxPlayers
      map := rawServer.map
      gamemode
      tags := stringTagsToFlags rawServer.gametype
      score := rawServer.score
      ping := rawServer.ping }

def parseServerInfos (rawServers : List (ServerInfoJson F)) (schema : Schema) :
    List (ServerInfo Addr F) :=
  rawServers.filterMap (parseServerInfo schema)

/-! ## Tags and their names -/

/-- Every tag with its name. -/
def ServerTags.names : List (ServerTags × String) :=
  [(NO_CRITS, "nocrits"), (NO_RESPAWN_TIMES, "norespawntime"), (RESPAWN_TIMES, "respawntimes"),
    (RTD, "rtd"), (CLASS_LIMITS, "classlimits"), (CLASS_BANS, "classbans"),
    (NO_OBJECTIVES, "nocap")]

end QuickplayServer
