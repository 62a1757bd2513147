import QuickplayServer.Configuration
import QuickplayServer.Lib.FirstMax
import QuickplayServer.Quickplay.Global

/-!
# QuickplayServer.Quickplay.Session

A user's preferences and the choice of a server for them
(`src/quickplay/session.rs`).
-/

namespace QuickplayServer.Quickplay

def MAX_MAP_BANS : Nat := 6

def SERVER_HEADROOM : Nat := 1
def FULL_PLAYERS : Nat := 24

inductive RandomCritsPreference where
  | Disabled
  | Enabled
  | DontCare
  deriving DecidableEq, Repr

inductive RespawnTimesPreference where
  | Default
  | Instant
  | DontCare
  deriving DecidableEq, Repr

inductive RtdPreference where
  | Disabled
  | Enabled
  | DontCare
  deriving DecidableEq, Repr

inductive ClassRestrictionsPreference where
  | None
  | Limits
  | LimitsAndBans
  deriving DecidableEq, Repr

inductive ObjectivesPreference where
  | Disabled
  | Enabled
  | DontCare
  deriving DecidableEq, Repr

structure QuickplayPreferences where
  randomCrits : RandomCritsPreference
  respawnTimes : RespawnTimesPreference
  rtd : RtdPreference
  classRestrictions : ClassRestrictionsPreference
  objectives : ObjectivesPreference
  partySize : UInt8
  mapBans : Vector (Option String) MAX_MAP_BANS
  gamemodes : Gamemodes
  deriving DecidableEq, Repr

inductive PreferenceDecodeError where
  | UnparseableValue
  | InvalidValue
  | UnknownPreference
  deriving DecidableEq, Repr

/-! ## Decoding -/

/-- `str::strip_prefix`. -/
def stripPrefix (s pre : String) : Option String :=
  (s.toList.dropPrefix? pre.toList).map String.ofList

/-- `str::parse` for an unsigned integer type with the largest value `max`. -/
def parseUnsigned (max : Nat) (value : String) : Option Nat :=
  let digits := match value.toList with
    | '+' :: digits => digits
    | digits => digits
  if digits ≠ [] ∧ digits.all Char.isDigit then
    let number := digits.foldl (fun number digit => number * 10 + (digit.toNat - '0'.toNat)) 0
    if number ≤ max then some number else none
  else none

def decodeEnumPreference {P : Type} (tryFromPrimitive : Nat → Option P) (value : String) :
    Except PreferenceDecodeError P := do
  match parseUnsigned 255 value with
  | none => throw .UnparseableValue
  | some value =>
      match tryFromPrimitive value with
      | none => throw .InvalidValue
      | some preference => pure preference

def RandomCritsPreference.tryFromPrimitive : Nat → Option RandomCritsPreference
  | 0 => some .Disabled
  | 1 => some .Enabled
  | 2 => some .DontCare
  | _ => none

def RespawnTimesPreference.tryFromPrimitive : Nat → Option RespawnTimesPreference
  | 0 => some .Default
  | 1 => some .Instant
  | 2 => some .DontCare
  | _ => none

def RtdPreference.tryFromPrimitive : Nat → Option RtdPreference
  | 0 => some .Disabled
  | 1 => some .Enabled
  | 2 => some .DontCare
  | _ => none

def ClassRestrictionsPreference.tryFromPrimitive : Nat → Option ClassRestrictionsPreference
  | 0 => some .None
  | 1 => some .Limits
  | 2 => some .LimitsAndBans
  | _ => none

def ObjectivesPreference.tryFromPrimitive : Nat → Option ObjectivesPreference
  | 0 => some .Disabled
  | 1 => some .Enabled
  | 2 => some .DontCare
  | _ => none

namespace QuickplayPreferences

def MAP_BAN_PREF_NAME : String := "map_ban_"
def GAMEMODE_PREF_NAME : String := "gamemode_"

def updatePreference (self : QuickplayPreferences) (name value : String) :
    Except PreferenceDecodeError QuickplayPreferences :=
  match stripPrefix name MAP_BAN_PREF_NAME with
  | some slotIndexStr =>
      match parseUnsigned (2 ^ 64 - 1) slotIndexStr with
      | none => throw .UnknownPreference
      | some slotIndex =>
          if h : slotIndex < MAX_MAP_BANS then
            pure { self with mapBans := self.mapBans.set slotIndex (some value) h }
          else throw .UnknownPreference
  | none =>
      match stripPrefix name GAMEMODE_PREF_NAME with
      | some gamemode =>
          match Gamemodes.fromStr gamemode with
          | none => throw .UnknownPreference
          | some gamemode =>
              match value with
              | "0" => pure { self with gamemodes := self.gamemodes &&& ~~~gamemode }
              | "1" => pure { self with gamemodes := self.gamemodes ||| gamemode }
              | _ => throw .InvalidValue
      | none =>
          match name with
          | "random_crits" => do
              let randomCrits ← decodeEnumPreference RandomCritsPreference.tryFromPrimitive value
              pure { self with randomCrits }
          | "respawn_times" => do
              let respawnTimes ← decodeEnumPreference RespawnTimesPreference.tryFromPrimitive value
              pure { self with respawnTimes }
          | "rtd" => do
              let rtd ← decodeEnumPreference RtdPreference.tryFromPrimitive value
              pure { self with rtd }
          | "class_restrictions" => do
              let classRestrictions ←
                decodeEnumPreference ClassRestrictionsPreference.tryFromPrimitive value
              pure { self with classRestrictions }
          | "objectives" => do
              let objectives ← decodeEnumPreference ObjectivesPreference.tryFromPrimitive value
              pure { self with objectives }
          | "party_size" =>
              match parseUnsigned 255 value with
              | none => throw .UnparseableValue
              | some partySize => pure { self with partySize := UInt8.ofNat partySize }
          | _ => throw .UnknownPreference

/-- The preferences of a user who set none. -/
def default : QuickplayPreferences where
  randomCrits := .DontCare
  respawnTimes := .Default
  rtd := .Disabled
  classRestrictions := .None
  objectives := .Enabled
  partySize := 1
  mapBans := Vector.replicate MAX_MAP_BANS none
  -- Everything except for alternative and arena
  gamemodes := BitVec.allOnes 8 ^^^ (Gamemodes.ALTERNATIVE ||| Gamemodes.ARENA)

/-- The tags that a server must have, and those that it must not have. -/
def buildFilterTags (self : QuickplayPreferences) : ServerTags × ServerTags :=
  let mustMatchTags : ServerTags := 0
  let mustNotMatchTags : ServerTags := 0
  let (mustMatchTags, mustNotMatchTags) :=
    match self.randomCrits with
    | .Enabled => (mustMatchTags, mustNotMatchTags ||| ServerTags.NO_CRITS)
    | .Disabled => (mustMatchTags ||| ServerTags.NO_CRITS, mustNotMatchTags)
    | .DontCare => (mustMatchTags, mustNotMatchTags)
  let (mustMatchTags, mustNotMatchTags) :=
    match self.respawnTimes with
    | .Default =>
        (mustMatchTags,
          mustNotMatchTags ||| (ServerTags.RESPAWN_TIMES ||| ServerTags.NO_RESPAWN_TIMES))
    | .Instant => (mustMatchTags ||| ServerTags.NO_RESPAWN_TIMES, mustNotMatchTags)
    | .DontCare => (mustMatchTags, mustNotMatchTags)
  let (mustMatchTags, mustNotMatchTags) :=
    match self.rtd with
    | .Enabled => (mustMatchTags ||| ServerTags.RTD, mustNotMatchTags)
    | .Disabled => (mustMatchTags, mustNotMatchTags ||| ServerTags.RTD)
    | .DontCare => (mustMatchTags, mustNotMatchTags)
  let (mustMatchTags, mustNotMatchTags) :=
    match self.classRestrictions with
    | .None =>
        (mustMatchTags, mustNotMatchTags ||| (ServerTags.CLASS_LIMITS ||| ServerTags.CLASS_BANS))
    | .Limits => (mustMatchTags ||| ServerTags.CLASS_BANS, mustNotMatchTags)
    | .LimitsAndBans => (mustMatchTags, mustNotMatchTags)
  let (mustMatchTags, mustNotMatchTags) :=
    match self.objectives with
    | .Enabled => (mustMatchTags, mustNotMatchTags ||| ServerTags.NO_OBJECTIVES)
    | .Disabled => (mustMatchTags ||| ServerTags.NO_OBJECTIVES, mustNotMatchTags)
    | .DontCare => (mustMatchTags, mustNotMatchTags)
  (mustMatchTags, mustNotMatchTags)

end QuickplayPreferences

section Score

variable {F : Type} [F32 F]

def lerp (inA inB outA outB x : F) : F := outA + ((outB - outA) * (x - inA)) / (inB - inA)

def toNearestEven (num : F) : F := 2.0 * F32.round (num / 2.0)

def scoreServerByPlayers (players maxPlayers partySize : UInt8) : F :=
  -- Convert everything to f32 to make calculations easier
  let players : F := F32.ofNat players.toNat
  let maxPlayers : F := F32.ofNat maxPlayers.toNat
  let partySize : F := F32.ofNat partySize.toNat
  let newPlayerCount := players + partySize
  if newPlayerCount + F32.ofNat SERVER_HEADROOM > maxPlayers then -100.0
  else
    let newMaxPlayers :=
      if maxPlayers > F32.ofNat FULL_PLAYERS then maxPlayers - F32.ofNat FULL_PLAYERS
      else maxPlayers
    if players = 0.0 then -0.3
    else
      let countLow := toNearestEven (maxPlayers / 3.0)
      let countIdeal := toNearestEven (maxPlayers * 0.72)
      let scoreLow : F := 0.1
      let scoreIdeal : F := 1.6
      let scoreFuller : F := 0.2
      if newPlayerCount ≤ countLow then lerp 0.0 countLow 0.0 scoreLow newPlayerCount
      else if newPlayerCount ≤ countIdeal then
        lerp countLow countIdeal scoreLow scoreIdeal newPlayerCount
      else if newPlayerCount ≤ newMaxPlayers then
        lerp countIdeal newMaxPlayers scoreIdeal scoreFuller newPlayerCount
      else lerp newMaxPlayers maxPlayers scoreFuller scoreLow newPlayerCount

end Score

structure QuickplaySession where
  preferences : QuickplayPreferences
  configuration : Configuration

namespace QuickplaySession

def new (configuration : Configuration) : QuickplaySession where
  preferences := QuickplayPreferences.default
  configuration := configuration

def errorMessage (name value : String) : PreferenceDecodeError → String
  | .UnparseableValue => s!"Could not decode value for preference \"{name}\": \"{value}\""
  | .InvalidValue => s!"Invalid value for preference \"{name}\": \"{value}\""
  | .UnknownPreference => s!"Unknown preference \"{name}\""

/-- The convars before the first one that is refused are applied. -/
def updatePreferencesFromConvars (convars : List (String × String)) (self : QuickplaySession) :
    Except String Unit × QuickplaySession :=
  match convars with
  | [] => (.ok (), self)
  | (name, value) :: convars =>
      -- source doesn't let you undefine convars made with setinfo. as a
      -- workaround, if the user makes the value an empty string it will
      -- be treated as if it doesn't exist.
      if value.isEmpty then updatePreferencesFromConvars convars self
      else
        match stripPrefix name self.configuration.quickplay.preferenceConvarPrefix with
        | none => updatePreferencesFromConvars convars self
        | some name =>
            match self.preferences.updatePreference name value with
            | .error errType => (.error (errorMessage name value errType), self)
            | .ok preferences => updatePreferencesFromConvars convars { self with preferences }

variable {Addr F : Type}

def filterServer (self : QuickplaySession) (server : ServerInfo Addr F)
    (mustMatchTags mustNotMatchTags : ServerTags) : Bool :=
  if self.preferences.gamemodes &&& server.gamemode ≠ server.gamemode then false
  else if server.tags &&& mustMatchTags ≠ mustMatchTags then false
  else if server.tags &&& mustNotMatchTags ≠ 0 then false
  else !(self.preferences.mapBans.toList.filterMap id).any fun bannedMap => server.map = bannedMap

variable [F32 F]

def scoreServerForUser (_self : QuickplaySession) (_server : ServerInfo Addr F) : F := 0.0

def scoreServer (self : QuickplaySession) (server : ServerInfo Addr F) : F :=
  if self.preferences.partySize ≤ 1 then 0.0
  else
    let defaultScore : F := scoreServerByPlayers server.players server.maxPlayers 1
    let newScore : F :=
      scoreServerByPlayers server.players server.maxPlayers self.preferences.partySize
    newScore - defaultScore

def recalculateServerScore (self : QuickplaySession) (server : ServerInfo Addr F) : F :=
  server.score + self.scoreServerForUser server + self.scoreServer server

/-- A round of the loop of `find_server`: the best server so far, with its
score, and the next one. -/
def considerServer (self : QuickplaySession) (mustMatchTags mustNotMatchTags : ServerTags)
    (bestServer : Option (ServerInfo Addr F × F)) (server : ServerInfo Addr F) :
    Option (ServerInfo Addr F × F) :=
  if !self.filterServer server mustMatchTags mustNotMatchTags then bestServer
  else
    let currentServerScore := self.recalculateServerScore server
    if currentServerScore ≤ 1.0 then bestServer
    else
      match bestServer with
      | some (_, bestServerScore) =>
          if currentServerScore > bestServerScore then some (server, currentServerScore)
          else bestServer
      | none => some (server, currentServerScore)

/-- The loop of `find_server`. -/
def bestServer (self : QuickplaySession) (serverList : List (ServerInfo Addr F)) :
    Option (ServerInfo Addr F × F) :=
  let (mustMatchTags, mustNotMatchTags) := self.preferences.buildFilterTags
  serverList.foldl (self.considerServer mustMatchTags mustNotMatchTags) none

def findServer (self : QuickplaySession) (serverList : List (ServerInfo Addr F)) : Option Addr :=
  (self.bestServer serverList).map fun (server, _) => server.addr

end QuickplaySession

end QuickplayServer.Quickplay
