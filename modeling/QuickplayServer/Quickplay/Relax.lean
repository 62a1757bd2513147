import QuickplayServer.Quickplay.FindServer

/-!
# QuickplayServer.Quickplay.Relax

What relaxed preferences find.

The masks of relaxed preferences are parts of the masks of the stricter ones,
with one exception: `Limits` asks for `CLASS_BANS`, which `None` forbids.
-/

namespace QuickplayServer.Quickplay

/-- `None` is the strictest. -/
def ClassRestrictionsPreference.permissiveness : ClassRestrictionsPreference → Nat
  | .None => 0
  | .Limits => 1
  | .LimitsAndBans => 2

/-- `q` relaxes `p`. -/
structure Relaxes (p q : QuickplayPreferences) : Prop where
  partySize : q.partySize = p.partySize
  gamemodes : q.gamemodes.Contains p.gamemodes
  mapBans : ∀ bannedMap, some bannedMap ∈ q.mapBans → some bannedMap ∈ p.mapBans
  randomCrits : q.randomCrits = p.randomCrits ∨ q.randomCrits = .DontCare
  respawnTimes : q.respawnTimes = p.respawnTimes ∨ q.respawnTimes = .DontCare
  rtd : q.rtd = p.rtd ∨ q.rtd = .DontCare
  objectives : q.objectives = p.objectives ∨ q.objectives = .DontCare
  classRestrictions : p.classRestrictions.permissiveness ≤ q.classRestrictions.permissiveness

variable {Addr F : Type} [F32 F]

variable (Addr F) in
/-- No server that `p` accepts is lost under `q`, and none that `p` finds. -/
def NeverLoses (p q : QuickplayPreferences) : Prop :=
  ∀ (configuration : Configuration) (serverList : List (ServerInfo Addr F)),
    (∀ server ∈ serverList, QuickplaySession.accepts ⟨p, configuration⟩ server = true →
      QuickplaySession.accepts ⟨q, configuration⟩ server = true) ∧
    ∀ server score, QuickplaySession.bestServer ⟨p, configuration⟩ serverList =
      some (server, score) →
      ∃ server' score', score ≤ score' ∧
        QuickplaySession.bestServer ⟨q, configuration⟩ serverList = some (server', score') ∧
        QuickplaySession.findServer ⟨q, configuration⟩ serverList = some server'.addr

/-! ## The masks -/

/-- A preference that is kept or not cared about asks for nothing new. -/
theorem filterTags_relaxed {α : Type} (filterTags : α → ServerTags × ServerTags)
    {side : ServerTags × ServerTags → ServerTags} (hside : side (0, 0) = 0) {p q dontCare : α}
    (h : q = p ∨ q = dontCare) (hdontCare : filterTags dontCare = (0, 0)) :
    (side (filterTags p)).Contains (side (filterTags q)) := by
  obtain rfl | rfl := h
  · exact BitVec.Contains.refl
  · rw [hdontCare, hside]
    exact BitVec.contains_zero

theorem classTags_relaxed {p q : ClassRestrictionsPreference}
    {side : ServerTags × ServerTags → ServerTags} (hside : side = Prod.fst ∨ side = Prod.snd)
    (h : p.permissiveness ≤ q.permissiveness) (hlimits : ¬ (p = .None ∧ q = .Limits)) :
    (side p.filterTags).Contains (side q.filterTags) := by
  obtain rfl | rfl := hside <;> cases p <;> cases q <;>
    first | decide | exact absurd h (by decide) | exact absurd ⟨rfl, rfl⟩ hlimits

namespace Relaxes

variable {p q : QuickplayPreferences}

theorem collectTags_contains (h : Relaxes p q)
    (hlimits : ¬ (p.classRestrictions = .None ∧ q.classRestrictions = .Limits))
    {side : ServerTags × ServerTags → ServerTags} (hside : side = Prod.fst ∨ side = Prod.snd) :
    (p.collectTags side).Contains (q.collectTags side) := by
  have hzero : side (0, 0) = 0 := by
    obtain rfl | rfl := hside <;> rfl
  have hrandomCrits := filterTags_relaxed RandomCritsPreference.filterTags hzero h.randomCrits rfl
  have hrespawnTimes :=
    filterTags_relaxed RespawnTimesPreference.filterTags hzero h.respawnTimes rfl
  have hrtd := filterTags_relaxed RtdPreference.filterTags hzero h.rtd rfl
  have hobjectives := filterTags_relaxed ObjectivesPreference.filterTags hzero h.objectives rfl
  have hclass := classTags_relaxed hside h.classRestrictions hlimits
  exact hrandomCrits.or (hrespawnTimes.or (hrtd.or (hclass.or hobjectives)))

omit [F32 F] in
theorem accepts (h : Relaxes p q)
    (hlimits : ¬ (p.classRestrictions = .None ∧ q.classRestrictions = .Limits))
    {configuration : Configuration} {server : ServerInfo Addr F}
    (haccepts : QuickplaySession.accepts ⟨p, configuration⟩ server = true) :
    QuickplaySession.accepts ⟨q, configuration⟩ server = true := by
  have hmust := h.collectTags_contains hlimits (.inl rfl)
  have hmustNot := h.collectTags_contains hlimits (.inr rfl)
  rw [QuickplaySession.accepts_iff, QuickplayPreferences.buildFilterTags_eq] at haccepts ⊢
  obtain ⟨hgamemode, htags, hzero, hmap⟩ := haccepts
  exact ⟨h.gamemodes.trans hgamemode, htags.trans hmust, hmustNot.and_eq_zero hzero,
    fun hban => hmap (h.mapBans _ hban)⟩

theorem recalculateServerScore (h : Relaxes p q) (configuration : Configuration)
    (server : ServerInfo Addr F) :
    QuickplaySession.recalculateServerScore ⟨q, configuration⟩ server =
      QuickplaySession.recalculateServerScore ⟨p, configuration⟩ server := by
  unfold QuickplaySession.recalculateServerScore QuickplaySession.scoreServer
  rw [h.partySize]
  rfl

theorem eligible (h : Relaxes p q)
    (hlimits : ¬ (p.classRestrictions = .None ∧ q.classRestrictions = .Limits))
    {configuration : Configuration} {server : ServerInfo Addr F}
    (heligible : QuickplaySession.eligible ⟨p, configuration⟩ server = true) :
    QuickplaySession.eligible ⟨q, configuration⟩ server = true := by
  unfold QuickplaySession.eligible at heligible ⊢
  rw [Bool.and_eq_true] at heligible ⊢
  rw [h.recalculateServerScore]
  exact ⟨h.accepts hlimits heligible.1, heligible.2⟩

theorem bestServer (h : Relaxes p q)
    (hlimits : ¬ (p.classRestrictions = .None ∧ q.classRestrictions = .Limits))
    {configuration : Configuration} {serverList : List (ServerInfo Addr F)}
    {server : ServerInfo Addr F} {score : F}
    (hbest : QuickplaySession.bestServer ⟨p, configuration⟩ serverList = some (server, score)) :
    ∃ server' score', score ≤ score' ∧
      QuickplaySession.bestServer ⟨q, configuration⟩ serverList = some (server', score') ∧
      QuickplaySession.findServer ⟨q, configuration⟩ serverList = some server'.addr := by
  rw [QuickplaySession.bestServer_eq, Option.map_eq_some_iff] at hbest
  obtain ⟨best, hbest, heq⟩ := hbest
  obtain ⟨rfl, rfl⟩ := Prod.mk.inj heq
  have hmem : best ∈ serverList.filter (QuickplaySession.eligible ⟨q, configuration⟩) := by
    have hp := List.argmax_mem hbest
    rw [List.mem_filter] at hp ⊢
    exact ⟨hp.1, h.eligible hlimits hp.2⟩
  cases hserver' : (serverList.filter (QuickplaySession.eligible ⟨q, configuration⟩)).argmax
      (QuickplaySession.recalculateServerScore ⟨q, configuration⟩) with
  | none =>
      rw [List.argmax_eq_none] at hserver'
      rw [hserver'] at hmem
      exact absurd hmem List.not_mem_nil
  | some server' =>
      have hle := List.le_of_mem_argmax hmem hserver'
      rw [h.recalculateServerScore configuration best] at hle
      refine ⟨server', _, hle, ?_, ?_⟩
      · rw [QuickplaySession.bestServer_eq, hserver', Option.map_some]
      · rw [QuickplaySession.findServer, QuickplaySession.bestServer_eq, hserver', Option.map_some,
          Option.map_some]

end Relaxes

/-! ## The exception -/

theorem exists_not_banned (p : QuickplayPreferences) : ∃ map, some map ∉ p.mapBans := by
  have hinj : Function.Injective fun n : Nat => String.ofList (List.replicate n 'a') := by
    intro n m h
    have hlist := String.ofList_injective h
    simpa using congrArg List.length hlist
  have : Infinite String := Infinite.of_injective _ hinj
  obtain ⟨map, hmap⟩ := Infinite.exists_notMem_finset (p.mapBans.toList.filterMap id).toFinset
  refine ⟨map, fun hban => hmap ?_⟩
  rw [List.mem_toFinset, List.mem_filterMap]
  exact ⟨some map, by simpa using hban, rfl⟩

/-- No tag is both asked for and forbidden. -/
theorem buildFilterTags_disjoint (p : QuickplayPreferences) :
    p.buildFilterTags.1 &&& p.buildFilterTags.2 = 0 := by
  rw [QuickplayPreferences.buildFilterTags_eq]
  unfold QuickplayPreferences.collectTags
  cases p.randomCrits <;> cases p.respawnTimes <;> cases p.rtd <;> cases p.classRestrictions <;>
    cases p.objectives <;> decide

theorem classBans_of_limits {p : QuickplayPreferences} (h : p.classRestrictions = .Limits) :
    p.buildFilterTags.1.Contains ServerTags.CLASS_BANS := by
  rw [QuickplayPreferences.buildFilterTags_eq]
  unfold QuickplayPreferences.collectTags
  rw [h]
  cases p.randomCrits <;> cases p.respawnTimes <;> cases p.rtd <;> cases p.objectives <;> decide

theorem classBans_of_none {p : QuickplayPreferences} (h : p.classRestrictions = .None) :
    p.buildFilterTags.2.Contains ServerTags.CLASS_BANS := by
  rw [QuickplayPreferences.buildFilterTags_eq]
  unfold QuickplayPreferences.collectTags
  rw [h]
  cases p.randomCrits <;> cases p.respawnTimes <;> cases p.rtd <;> cases p.objectives <;> decide

/-- A server that has just the tags that the preferences ask for. -/
def matchingServer (p : QuickplayPreferences) (addr : Addr) (map : String) : ServerInfo Addr F where
  addr := addr
  players := 0
  maxPlayers := 0
  map := map
  gamemode := p.gamemodes
  tags := p.buildFilterTags.1
  score := 0.0
  ping := 0.0

theorem accepts_matchingServer {p : QuickplayPreferences} (configuration : Configuration)
    (addr : Addr) {map : String} (hmap : some map ∉ p.mapBans) :
    QuickplaySession.accepts ⟨p, configuration⟩ (matchingServer p addr map : ServerInfo Addr F) =
      true :=
  QuickplaySession.accepts_iff.mpr
    ⟨BitVec.Contains.refl, BitVec.Contains.refl, buildFilterTags_disjoint p, hmap⟩

omit [F32 F] in
/-- No server that `None` accepts is accepted under `Limits`. -/
theorem not_accepts_of_limits {p q : QuickplayPreferences} (hp : p.classRestrictions = .None)
    (hq : q.classRestrictions = .Limits) {configuration : Configuration}
    {server : ServerInfo Addr F}
    (h : QuickplaySession.accepts ⟨p, configuration⟩ server = true) :
    ¬ QuickplaySession.accepts ⟨q, configuration⟩ server = true := by
  rw [QuickplaySession.accepts_iff] at h ⊢
  rintro ⟨-, hmust, -, -⟩
  have hzero := (classBans_of_none hp).and_eq_zero h.2.2.1
  have hbans := hmust.trans (classBans_of_limits hq)
  exact absurd (hbans.symm.trans hzero) (by decide)

/-- Relaxing preferences never loses a server, except from `None` to `Limits`. -/
theorem neverLoses_iff [Inhabited Addr] {p q : QuickplayPreferences} (h : Relaxes p q) :
    NeverLoses Addr F p q ↔ ¬ (p.classRestrictions = .None ∧ q.classRestrictions = .Limits) := by
  constructor
  · rintro hloses ⟨hp, hq⟩
    obtain ⟨map, hmap⟩ := exists_not_banned p
    have haccepts : QuickplaySession.accepts ⟨p, Configuration.loadDefault⟩
        (matchingServer p default map : ServerInfo Addr F) = true :=
      accepts_matchingServer _ _ hmap
    refine not_accepts_of_limits hp hq haccepts ?_
    exact (hloses _ [matchingServer p default map]).1 _ (List.mem_singleton.mpr rfl) haccepts
  · intro hlimits configuration serverList
    exact ⟨fun server _ haccepts => h.accepts hlimits haccepts,
      fun server score hbest => h.bestServer hlimits hbest⟩

/-! ## The exception at work -/

instance : F32 ℚ where
  ofNat := Nat.cast
  round num := if 0 ≤ num then ⌊num + 1 / 2⌋ else -⌊1 / 2 - num⌋

/-- The preferences of a user who allows class limits, and nothing else. -/
def allowsLimits : QuickplayPreferences :=
  { QuickplayPreferences.default with classRestrictions := .Limits }

def allowsLimitsAndBans : QuickplayPreferences :=
  { QuickplayPreferences.default with classRestrictions := .LimitsAndBans }

/-- A server without any tags. -/
def vanillaServer : ServerInfo Nat ℚ where
  addr := 0
  players := 10
  maxPlayers := 24
  map := "pl_upward"
  gamemode := Gamemodes.PAYLOAD
  tags := 0
  score := 2
  ping := 0

theorem neverLoses_limitsAndBans :
    NeverLoses Nat ℚ QuickplayPreferences.default allowsLimitsAndBans ↔
      ¬ (QuickplayPreferences.default.classRestrictions = .None ∧
        allowsLimitsAndBans.classRestrictions = .Limits) :=
  neverLoses_iff
    { partySize := rfl
      gamemodes := BitVec.Contains.refl
      mapBans := fun _ h => h
      randomCrits := .inl rfl
      respawnTimes := .inl rfl
      rtd := .inl rfl
      objectives := .inl rfl
      classRestrictions := by decide }

/-- A user who allows class limits does not find a server that has none. -/
theorem allowsLimits_loses_vanillaServer :
    Relaxes QuickplayPreferences.default allowsLimits ∧
      QuickplaySession.accepts ⟨QuickplayPreferences.default, .loadDefault⟩ vanillaServer = true ∧
      QuickplaySession.accepts ⟨allowsLimits, .loadDefault⟩ vanillaServer = false ∧
      QuickplaySession.findServer ⟨QuickplayPreferences.default, .loadDefault⟩ [vanillaServer] =
        some 0 ∧
      QuickplaySession.findServer ⟨allowsLimits, .loadDefault⟩ [vanillaServer] = none := by
  refine ⟨?_, by decide +kernel, by decide +kernel, by decide +kernel, by decide +kernel⟩
  exact
    { partySize := rfl
      gamemodes := BitVec.Contains.refl
      mapBans := fun _ h => h
      randomCrits := .inl rfl
      respawnTimes := .inl rfl
      rtd := .inl rfl
      objectives := .inl rfl
      classRestrictions := by decide }

end QuickplayServer.Quickplay
