import QuickplayServer.Quickplay.Session

/-!
# QuickplayServer.Quickplay.FindServer

What `find_server` finds in a list of raw records.

A set of tags is read flag by flag: `stringTagsToFlags` sets the tag of every
name in the list, and the two masks of `buildFilterTags` hold named tags only.
The loop of `find_server` is `List.argmax` over the eligible servers, which are
the ones that the qualifying records are parsed to.
-/

namespace QuickplayServer

namespace ServerTags

/-! ## Tags and their names -/

/-- The tag that a name stands for. -/
def ofName (strTag : String) : ServerTags :=
  match strTag with
  | "nocrits" => NO_CRITS
  | "norespawntime" => NO_RESPAWN_TIMES
  | "respawntimes" => RESPAWN_TIMES
  | "rtd" => RTD
  | "classlimits" => CLASS_LIMITS
  | "classbans" => CLASS_BANS
  | "nocap" => NO_OBJECTIVES
  | _ => 0

/-- No tag is among the empty flags. -/
theorem zero_contains_name : ∀ tag ∈ names, ¬ (0 : ServerTags).Contains tag.1 := by decide

/-- The flags of a text contain a tag exactly if the text is its name; the names are
distinct. -/
theorem ofName_contains {tag : ServerTags × String} (h : tag ∈ names) (strTag : String) :
    (ofName strTag).Contains tag.1 ↔ strTag = tag.2 := by
  have hzero := zero_contains_name tag h
  simp only [names, List.mem_cons, List.not_mem_nil, or_false] at h
  unfold ofName
  split
  case h_8 =>
    rw [iff_false_left hzero]
    rcases h with rfl | rfl | rfl | rfl | rfl | rfl | rfl <;> assumption
  all_goals rcases h with rfl | rfl | rfl | rfl | rfl | rfl | rfl <;> decide

/-- The tags are the lowest seven bits, so what holds of these bits holds of all
tags. -/
theorem forall_names {P : ServerTags → Prop} :
    (∀ tag ∈ names, P tag.1) ↔ ∀ i ∈ List.range 7, P (BitVec.twoPow 8 i) := by
  have h : names.map Prod.fst = (List.range 7).map (BitVec.twoPow 8) := by decide
  rw [← List.forall_mem_map, h, List.forall_mem_map]

/-- A single bit is in a union exactly if it is in one of the parts. -/
theorem or_contains_name {a b : ServerTags} :
    ∀ tag ∈ names, (a ||| b).Contains tag.1 ↔ a.Contains tag.1 ∨ b.Contains tag.1 := by
  apply
    (forall_names (P := fun tag => (a ||| b).Contains tag ↔ a.Contains tag ∨ b.Contains tag)).mpr
  intro i hi
  exact BitVec.or_contains_twoPow (by grind)

/-- The tags of a set have names. -/
def Named (tags : ServerTags) : Prop := tags.getLsbD 7 = false

instance (tags : ServerTags) : Decidable tags.Named := inferInstanceAs (Decidable (_ = _))

/-- The union of named flags has no bit without a name. -/
theorem Named.or {a b : ServerTags} (h : a.Named) (h' : b.Named) : ServerTags.Named (a ||| b) := by
  unfold Named at h h' ⊢
  rw [BitVec.getLsbD_or, h, h', Bool.or_false]

/-- A bit of named flags is one of the lowest seven. -/
theorem Named.mem_range {tags : ServerTags} (h : tags.Named) :
    ∀ i, tags.getLsbD i = true → i ∈ List.range 7 := by
  intro i hi
  have hlt := BitVec.lt_of_getLsbD hi
  have hne : i ≠ 7 := by
    rintro rfl
    exact absurd (h.symm.trans hi) (by decide)
  rw [List.mem_range]
  omega

/-- Named flags are contained exactly if each tag in them is. -/
theorem Named.contains_iff {tags mask : ServerTags} (h : mask.Named) :
    tags.Contains mask ↔ ∀ tag ∈ names, mask.Contains tag.1 → tags.Contains tag.1 := by
  rw [BitVec.contains_iff_forall (by decide) h.mem_range,
    forall_names (P := fun tag => mask.Contains tag → tags.Contains tag)]

/-- Named flags are disjoint from others exactly if none of the tags in them is
among these. -/
theorem Named.and_eq_zero_iff {tags mask : ServerTags} (h : mask.Named) :
    tags &&& mask = 0 ↔ ∀ tag ∈ names, mask.Contains tag.1 → ¬ tags.Contains tag.1 := by
  rw [BitVec.and_eq_zero_iff_forall (by decide) h.mem_range,
    forall_names (P := fun tag => mask.Contains tag → ¬ tags.Contains tag)]

end ServerTags

open ServerTags in
/-- The loop of `string_tags_to_flags` joins the flags of the texts one after the
other, and unknown texts add nothing. -/
theorem stringTagsToFlags_eq (strTags : List String) :
    stringTagsToFlags strTags = strTags.foldl (fun tags strTag => tags ||| ofName strTag) 0 := by
  unfold stringTagsToFlags
  congr 1
  funext tags strTag
  unfold ofName
  split <;> simp

/-- The tag of a name is set exactly when the name is in the list. -/
theorem stringTagsToFlags_contains {tag : ServerTags × String} (h : tag ∈ ServerTags.names)
    (strTags : List String) : (stringTagsToFlags strTags).Contains tag.1 ↔ tag.2 ∈ strTags := by
  rw [stringTagsToFlags_eq]
  induction strTags using List.reverseRecOn with
  | nil =>
      rw [List.foldl_nil, iff_false_left (ServerTags.zero_contains_name tag h)]
      exact List.not_mem_nil
  | append_singleton strTags strTag ih =>
      rw [List.foldl_append, List.foldl_cons, List.foldl_nil, ServerTags.or_contains_name tag h,
        ih, ServerTags.ofName_contains h, List.mem_append, List.mem_singleton,
        eq_comm (a := strTag)]

namespace Quickplay

/-! ## The masks of the preferences

Each preference asks for tags and forbids tags, and the masks collect them. -/

def RandomCritsPreference.filterTags : RandomCritsPreference → ServerTags × ServerTags
  | .Enabled => (0, ServerTags.NO_CRITS)
  | .Disabled => (ServerTags.NO_CRITS, 0)
  | .DontCare => (0, 0)

def RespawnTimesPreference.filterTags : RespawnTimesPreference → ServerTags × ServerTags
  | .Default => (0, ServerTags.RESPAWN_TIMES ||| ServerTags.NO_RESPAWN_TIMES)
  | .Instant => (ServerTags.NO_RESPAWN_TIMES, 0)
  | .DontCare => (0, 0)

def RtdPreference.filterTags : RtdPreference → ServerTags × ServerTags
  | .Enabled => (ServerTags.RTD, 0)
  | .Disabled => (0, ServerTags.RTD)
  | .DontCare => (0, 0)

def ClassRestrictionsPreference.filterTags : ClassRestrictionsPreference → ServerTags × ServerTags
  | .None => (0, ServerTags.CLASS_LIMITS ||| ServerTags.CLASS_BANS)
  | .Limits => (ServerTags.CLASS_BANS, 0)
  | .LimitsAndBans => (0, 0)

def ObjectivesPreference.filterTags : ObjectivesPreference → ServerTags × ServerTags
  | .Enabled => (0, ServerTags.NO_OBJECTIVES)
  | .Disabled => (ServerTags.NO_OBJECTIVES, 0)
  | .DontCare => (0, 0)

namespace QuickplayPreferences

/-- What each preference asks for (`Prod.fst`) or forbids (`Prod.snd`), together. -/
def collectTags (self : QuickplayPreferences) (side : ServerTags × ServerTags → ServerTags) :
    ServerTags :=
  side self.randomCrits.filterTags ||| (side self.respawnTimes.filterTags |||
    (side self.rtd.filterTags ||| (side self.classRestrictions.filterTags |||
      side self.objectives.filterTags)))

/-- `build_filter_tags` collects the required and the forbidden tags of the
preferences independently of each other. -/
theorem buildFilterTags_eq (self : QuickplayPreferences) :
    self.buildFilterTags = (self.collectTags Prod.fst, self.collectTags Prod.snd) := by
  obtain ⟨randomCrits, respawnTimes, rtd, classRestrictions, objectives, -, -, -⟩ := self
  unfold buildFilterTags collectTags
  cases randomCrits <;> cases respawnTimes <;> cases rtd <;> cases classRestrictions <;>
    cases objectives <;> (dsimp only; decide)

/-- Each preference contributes named flags, so both sides are named. -/
theorem collectTags_named (self : QuickplayPreferences)
    {side : ServerTags × ServerTags → ServerTags}
    (hside : side = Prod.fst ∨ side = Prod.snd) : (self.collectTags side).Named := by
  have hrandomCrits : (side self.randomCrits.filterTags).Named := by
    rcases hside with rfl | rfl <;> cases self.randomCrits <;> decide
  have hrespawnTimes : (side self.respawnTimes.filterTags).Named := by
    rcases hside with rfl | rfl <;> cases self.respawnTimes <;> decide
  have hrtd : (side self.rtd.filterTags).Named := by
    rcases hside with rfl | rfl <;> cases self.rtd <;> decide
  have hclassRestrictions : (side self.classRestrictions.filterTags).Named := by
    rcases hside with rfl | rfl <;> cases self.classRestrictions <;> decide
  have hobjectives : (side self.objectives.filterTags).Named := by
    rcases hside with rfl | rfl <;> cases self.objectives <;> decide
  exact hrandomCrits.or (hrespawnTimes.or (hrtd.or (hclassRestrictions.or hobjectives)))

/-- The filter never asks for a bit that no tag has. -/
theorem buildFilterTags_named (self : QuickplayPreferences) :
    self.buildFilterTags.1.Named ∧ self.buildFilterTags.2.Named := by
  rw [buildFilterTags_eq]
  exact ⟨self.collectTags_named (.inl rfl), self.collectTags_named (.inr rfl)⟩

end QuickplayPreferences

namespace QuickplaySession

/-! ## The filter -/

section

variable {Addr F : Type}

/-- `filter_server` with the masks of the preferences, as `find_server` calls it. -/
def accepts (self : QuickplaySession) (server : ServerInfo Addr F) : Bool :=
  self.filterServer server self.preferences.buildFilterTags.1 self.preferences.buildFilterTags.2

/-- A server passes the filter exactly if its gamemode is wanted, it has all
required tags and none of the forbidden ones, and its map is not banned. -/
theorem accepts_iff {self : QuickplaySession} {server : ServerInfo Addr F} :
    self.accepts server = true ↔ self.preferences.gamemodes.Contains server.gamemode ∧
      server.tags.Contains self.preferences.buildFilterTags.1 ∧
      server.tags &&& self.preferences.buildFilterTags.2 = 0 ∧
      some server.map ∉ self.preferences.mapBans := by
  have hbans : ((self.preferences.mapBans.toList.filterMap id).any fun bannedMap =>
      server.map = bannedMap) = true ↔ some server.map ∈ self.preferences.mapBans := by
    simp only [List.any_eq_true, List.mem_filterMap, id_eq, decide_eq_true_eq, exists_eq_right',
      exists_eq_right, Vector.mem_toList_iff]
  unfold accepts filterServer BitVec.Contains
  split
  case isTrue h => exact iff_of_false Bool.false_ne_true fun hall => h hall.1
  case isFalse hgamemode =>
    split
    case isTrue h => exact iff_of_false Bool.false_ne_true fun hall => h hall.2.1
    case isFalse hmatch =>
      split
      case isTrue h => exact iff_of_false Bool.false_ne_true fun hall => h hall.2.2.1
      case isFalse hnot =>
        rw [ne_eq, not_not] at hgamemode hmatch hnot
        rw [Bool.not_eq_true', ← Bool.not_eq_true, hbans]
        exact ⟨fun h => ⟨hgamemode, hmatch, hnot, h⟩, fun h => h.2.2.2⟩

end

variable {Addr F : Type} [F32 F]

/-- The servers that `find_server` chooses from. -/
def eligible (self : QuickplaySession) (server : ServerInfo Addr F) : Bool :=
  self.accepts server && decide (1.0 < self.recalculateServerScore server)

/-! ## The loop -/

/-- One more server at the end of the list replaces the best one so far if it is
eligible and its score is strictly greater. -/
theorem bestServer_concat (self : QuickplaySession) (serverList : List (ServerInfo Addr F))
    (server : ServerInfo Addr F) :
    self.bestServer (serverList ++ [server]) =
      if self.eligible server then
        match self.bestServer serverList with
        | some (best, bestServerScore) =>
            if bestServerScore < self.recalculateServerScore server then
              some (server, self.recalculateServerScore server)
            else some (best, bestServerScore)
        | none => some (server, self.recalculateServerScore server)
      else self.bestServer serverList := by
  have hstep : self.bestServer (serverList ++ [server]) =
      self.considerServer self.preferences.buildFilterTags.1 self.preferences.buildFilterTags.2
        (self.bestServer serverList) server :=
    List.foldl_concat _ _ _ _
  rw [hstep]
  unfold considerServer eligible
  cases haccepts : self.accepts server with
  | false =>
      unfold accepts at haccepts
      rw [haccepts]
      rfl
  | true =>
      unfold accepts at haccepts
      rw [haccepts]
      by_cases hscore : self.recalculateServerScore server ≤ 1.0
      · simp [hscore, not_lt.mpr hscore]
      · rw [if_neg (by simp), if_neg hscore, if_pos (by simp [not_le.mp hscore])]
        cases self.bestServer serverList <;> rfl

/-- The loop keeps the first maximum of the eligible servers. -/
theorem bestServer_eq (self : QuickplaySession) (serverList : List (ServerInfo Addr F)) :
    self.bestServer serverList =
      ((serverList.filter self.eligible).argmax self.recalculateServerScore).map fun server =>
        (server, self.recalculateServerScore server) := by
  induction serverList using List.reverseRecOn with
  | nil => rfl
  | append_singleton serverList server ih =>
      rw [bestServer_concat, ih, List.filter_append, List.filter_singleton]
      cases self.eligible server with
      | false => rw [cond_false, List.append_nil]; rfl
      | true =>
          rw [cond_true, List.argmax_concat, if_pos rfl]
          cases (serverList.filter self.eligible).argmax self.recalculateServerScore with
          | none => rfl
          | some best =>
              dsimp only [Option.map_some]
              split <;> rfl

/-- `find_server` answers with the address of the first server with the greatest
score among those that are eligible. -/
theorem findServer_eq_some_iff {self : QuickplaySession} {serverList : List (ServerInfo Addr F)}
    {addr : Addr} : self.findServer serverList = some addr ↔ ∃ server : ServerInfo Addr F,
      FirstMax self.recalculateServerScore server (serverList.filter self.eligible) ∧
        server.addr = addr := by
  unfold findServer
  rw [bestServer_eq, Option.map_map, Option.map_eq_some_iff]
  simp only [argmax_eq_some_iff_firstMax, Function.comp_apply]

/-! ## The records -/

/-- The recalculated score of a record. -/
def rawScore (self : QuickplaySession) (raw : ServerInfoJson F) : F :=
  self.recalculateServerScore
    { addr := ()
      players := raw.players.toUInt8
      maxPlayers := raw.maxPlayers.toUInt8
      map := raw.map
      gamemode := 0
      tags := 0
      score := raw.score
      ping := raw.ping }

variable [SocketAddr Addr]

variable (Addr) in
/-- The records that `find_server` chooses from. -/
structure Qualifies (session : QuickplaySession) (schema : Schema) (raw : ServerInfoJson F) :
    Prop where
  addr : ∃ addr : Addr, SocketAddr.fromStr raw.addr = some addr
  players : raw.players.toNat ≤ 255
  maxPlayers : raw.maxPlayers.toNat ≤ 255
  gamemode : ∃ gamemode, schema.mapGamemodes raw.map = some gamemode ∧
    session.preferences.gamemodes.Contains gamemode
  map : some raw.map ∉ session.preferences.mapBans
  mustMatch : ∀ tag ∈ ServerTags.names,
    session.preferences.buildFilterTags.1.Contains tag.1 → tag.2 ∈ raw.gametype
  mustNotMatch : ∀ tag ∈ ServerTags.names,
    session.preferences.buildFilterTags.2.Contains tag.1 → tag.2 ∉ raw.gametype
  score : 1.0 < session.rawScore raw

omit [F32 F] in
/-- A record is kept exactly if its map is in the schema, its address can be parsed
and its two counts fit a byte; then the server has the fields of the record. -/
theorem parseServerInfo_eq_some_iff {schema : Schema} {raw : ServerInfoJson F}
    {server : ServerInfo Addr F} : parseServerInfo schema raw = some server ↔
      ∃ gamemode addr, schema.mapGamemodes raw.map = some gamemode ∧
        SocketAddr.fromStr raw.addr = some addr ∧ raw.players.toNat ≤ 255 ∧
        raw.maxPlayers.toNat ≤ 255 ∧ server =
          { addr
            players := raw.players.toUInt8
            maxPlayers := raw.maxPlayers.toUInt8
            map := raw.map
            gamemode
            tags := stringTagsToFlags raw.gametype
            score := raw.score
            ping := raw.ping } := by
  unfold parseServerInfo tryIntoU8
  simp only [Option.bind_eq_bind, Option.bind_eq_some_iff, Option.ite_none_right_eq_some,
    Option.some.injEq, Nat.lt_succ_iff]
  grind

/-- A record that is parsed is eligible exactly if it qualifies as it stands in the
file. -/
theorem eligible_iff_qualifies {self : QuickplaySession} {schema : Schema} {raw : ServerInfoJson F}
    {server : ServerInfo Addr F} (h : parseServerInfo schema raw = some server) :
    self.eligible server = true ↔ self.Qualifies Addr schema raw := by
  obtain ⟨hmatch, hnot⟩ := self.preferences.buildFilterTags_named
  obtain ⟨gamemode, addr, hgamemode, haddr, hplayers, hmaxPlayers, rfl⟩ :=
    parseServerInfo_eq_some_iff.mp h
  unfold eligible
  rw [Bool.and_eq_true, accepts_iff, decide_eq_true_eq, hmatch.contains_iff, hnot.and_eq_zero_iff]
  constructor
  · rintro ⟨⟨hprefers, hmust, hmustNot, hmap⟩, hscore⟩
    exact
      { addr := ⟨addr, haddr⟩
        players := hplayers
        maxPlayers := hmaxPlayers
        gamemode := ⟨gamemode, hgamemode, hprefers⟩
        map := hmap
        mustMatch := fun tag htag h => (stringTagsToFlags_contains htag _).mp (hmust tag htag h)
        mustNotMatch := fun tag htag h hmem =>
          hmustNot tag htag h ((stringTagsToFlags_contains htag _).mpr hmem)
        score := hscore }
  · intro hq
    obtain ⟨gamemode', hgamemode', hprefers⟩ := hq.gamemode
    obtain rfl := Option.some.inj (hgamemode.symm.trans hgamemode')
    refine ⟨⟨hprefers, fun tag htag h => ?_, fun tag htag h hmem => ?_, hq.map⟩, hq.score⟩
    · exact (stringTagsToFlags_contains htag _).mpr (hq.mustMatch tag htag h)
    · exact hq.mustNotMatch tag htag h ((stringTagsToFlags_contains htag _).mp hmem)

/-- The score of a parsed record can be computed from the record itself. -/
theorem rawScore_eq {self : QuickplaySession} {schema : Schema} {raw : ServerInfoJson F}
    {server : ServerInfo Addr F} (h : parseServerInfo schema raw = some server) :
    self.recalculateServerScore server = self.rawScore raw := by
  obtain ⟨gamemode, addr, -, -, -, -, rfl⟩ := parseServerInfo_eq_some_iff.mp h
  rfl

/-- What becomes of a record in the list that the loop chooses from. -/
theorem pick_eq_some_iff {self : QuickplaySession} {schema : Schema} {raw : ServerInfoJson F}
    {server : ServerInfo Addr F} :
    (parseServerInfo schema raw).filter self.eligible = some server ↔
      self.Qualifies Addr schema raw ∧ parseServerInfo schema raw = some server := by
  rw [Option.filter_eq_some_iff, and_comm]
  exact and_congr_left fun h => eligible_iff_qualifies h

/-- A record that qualifies is never dropped by the parser. -/
theorem Qualifies.parse {self : QuickplaySession} {schema : Schema} {raw : ServerInfoJson F}
    (h : self.Qualifies Addr schema raw) :
    ∃ server : ServerInfo Addr F, parseServerInfo schema raw = some server := by
  obtain ⟨gamemode, hgamemode, -⟩ := h.gamemode
  obtain ⟨addr, haddr⟩ := h.addr
  exact ⟨_, parseServerInfo_eq_some_iff.mpr
    ⟨gamemode, addr, hgamemode, haddr, h.players, h.maxPlayers, rfl⟩⟩

omit [F32 F] in
/-- The address of a server is that of its record. -/
theorem parseServerInfo_addr {schema : Schema} {raw : ServerInfoJson F} {server : ServerInfo Addr F}
    (h : parseServerInfo schema raw = some server) :
    SocketAddr.fromStr raw.addr = some server.addr := by
  obtain ⟨gamemode, addr, -, haddr, -, -, rfl⟩ := parseServerInfo_eq_some_iff.mp h
  exact haddr

/-- The eligible servers come from the records one by one and in their order, so
that a record without influence can be left out. -/
theorem filter_parseServerInfos (self : QuickplaySession) (schema : Schema)
    (rawServers : List (ServerInfoJson F)) :
    (parseServerInfos rawServers schema : List (ServerInfo Addr F)).filter self.eligible =
      rawServers.filterMap fun raw => (parseServerInfo schema raw).filter self.eligible :=
  List.filter_filterMap

/-- The best qualifying records among others, in the words of the records. -/
theorem best_iff {self : QuickplaySession} {schema : Schema} {others : List (ServerInfoJson F)}
    (P : F → Prop) :
    (∀ other ∈ others, ∀ server : ServerInfo Addr F,
      server ∈ (parseServerInfo schema other).filter self.eligible →
        P (self.recalculateServerScore server)) ↔
      ∀ other ∈ others, self.Qualifies Addr schema other → P (self.rawScore other) := by
  refine forall₂_congr fun other _ => ?_
  simp only [Option.mem_def, pick_eq_some_iff]
  constructor
  · intro h hq
    obtain ⟨server, hparse⟩ := hq.parse
    rw [← rawScore_eq hparse]
    exact h server ⟨hq, hparse⟩
  · rintro h server ⟨hq, hparse⟩
    rw [rawScore_eq hparse]
    exact h hq

/-- A server is found when a record qualifies; it is the first of the best
qualifying records, and the other records do not matter. -/
theorem findServer_parseServerInfos (self : QuickplaySession) (schema : Schema)
    (rawServers : List (ServerInfoJson F)) :
    ((self.findServer (parseServerInfos rawServers schema : List (ServerInfo Addr F))).isSome ↔
      ∃ raw ∈ rawServers, self.Qualifies Addr schema raw) ∧
    (∀ addr : Addr, self.findServer (parseServerInfos rawServers schema) = some addr ↔
      ∃ pre raw post, rawServers = pre ++ raw :: post ∧
        self.Qualifies Addr schema raw ∧ SocketAddr.fromStr raw.addr = some addr ∧
        (∀ other ∈ pre, self.Qualifies Addr schema other →
          self.rawScore other < self.rawScore raw) ∧
        ∀ other ∈ post, self.Qualifies Addr schema other →
          self.rawScore other ≤ self.rawScore raw) ∧
    ∀ pre raw post, rawServers = pre ++ raw :: post → ¬ self.Qualifies Addr schema raw →
      self.findServer (parseServerInfos rawServers schema : List (ServerInfo Addr F)) =
        self.findServer (parseServerInfos (pre ++ post) schema) := by
  refine ⟨?_, fun addr => ?_, ?_⟩
  · rw [findServer, Option.isSome_map, bestServer_eq, Option.isSome_map, Option.isSome_iff_ne_none,
      ne_eq, List.argmax_eq_none, filter_parseServerInfos, List.filterMap_eq_nil_iff]
    push Not
    refine exists_congr fun raw => and_congr_right fun _ => ?_
    rw [Option.ne_none_iff_exists']
    simp only [pick_eq_some_iff]
    exact ⟨fun ⟨_, h, _⟩ => h, fun h => h.parse.imp fun _ hparse => ⟨h, hparse⟩⟩
  · rw [findServer_eq_some_iff]
    simp only [filter_parseServerInfos, firstMax_filterMap, pick_eq_some_iff]
    constructor
    · rintro ⟨server, ⟨pre, raw, post, rfl, ⟨hq, hparse⟩, hpre, hpost⟩, rfl⟩
      rw [rawScore_eq hparse] at hpre hpost
      exact ⟨pre, raw, post, rfl, hq, parseServerInfo_addr hparse,
        (best_iff (· < self.rawScore raw)).mp hpre, (best_iff (· ≤ self.rawScore raw)).mp hpost⟩
    · rintro ⟨pre, raw, post, rfl, hq, haddr, hpre, hpost⟩
      obtain ⟨server, hparse⟩ := hq.parse
      rw [← rawScore_eq hparse] at hpre hpost
      refine ⟨server, ⟨pre, raw, post, rfl, ⟨hq, hparse⟩,
        (best_iff (· < self.recalculateServerScore server)).mpr hpre,
        (best_iff (· ≤ self.recalculateServerScore server)).mpr hpost⟩, ?_⟩
      exact Option.some.inj ((parseServerInfo_addr hparse).symm.trans haddr)
  · rintro pre raw post rfl hq
    have hnone :
        (parseServerInfo schema raw : Option (ServerInfo Addr F)).filter self.eligible = none := by
      rw [Option.eq_none_iff_forall_ne_some]
      exact fun server h => hq (pick_eq_some_iff.mp h).1
    unfold findServer
    rw [bestServer_eq, bestServer_eq, filter_parseServerInfos, filter_parseServerInfos,
      List.filterMap_append, List.filterMap_append, List.filterMap_cons, hnone]

end QuickplaySession

end Quickplay

end QuickplayServer
