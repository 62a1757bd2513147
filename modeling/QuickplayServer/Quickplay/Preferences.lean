import QuickplayServer.Lib.Registers
import QuickplayServer.Quickplay.Session

/-!
# QuickplayServer.Quickplay.Preferences

How convars set a user's preferences (`src/quickplay/session.rs`).

The preferences are registers, the slots: the fields, the map bans and the
bits of the gamemodes.  A list of convars is a script that writes them
(`updatePreferencesFromConvars_execute`), so what a slot holds at the end is
what the last convar for it says.
-/

namespace QuickplayServer.Quickplay

theorem stripPrefix_append (pre s : String) : stripPrefix (pre ++ s) pre = some s := by
  rw [stripPrefix, String.toList_append, List.dropPrefix?_append_of_beq _ (beq_self_eq_true _),
    Option.map_some, String.ofList_toList]

/-! ## Slots -/

inductive Slot where
  | randomCrits
  | respawnTimes
  | rtd
  | classRestrictions
  | objectives
  | partySize
  | mapBan (i : Fin MAX_MAP_BANS)
  | gamemode (i : Fin 8)
  deriving DecidableEq, Repr

def Slot.Value : Slot → Type
  | .randomCrits => RandomCritsPreference
  | .respawnTimes => RespawnTimesPreference
  | .rtd => RtdPreference
  | .classRestrictions => ClassRestrictionsPreference
  | .objectives => ObjectivesPreference
  | .partySize => UInt8
  | .mapBan _ => Option String
  | .gamemode _ => Bool

/-- The bit that `Gamemodes::from_str` sets. -/
def gamemodeBit : String → Option (Fin 8)
  | "attack_defense" => some 2
  | "ctf" => some 3
  | "capture_point" => some 4
  | "koth" => some 1
  | "payload" => some 0
  | "payload_race" => some 5
  | "arena" => some 7
  | "alternative" => some 6
  | _ => none

theorem fromStr_eq (gamemode : String) :
    Gamemodes.fromStr gamemode = (gamemodeBit gamemode).map fun i : Fin 8 => BitVec.twoPow 8 i := by
  unfold Gamemodes.fromStr gamemodeBit
  split <;> first | rfl | simp [*]

/-- The slot that a preference's name, without the convar prefix, stands for. -/
def Slot.ofName (name : String) : Option Slot :=
  match stripPrefix name QuickplayPreferences.MAP_BAN_PREF_NAME with
  | some index =>
      match parseUnsigned (2 ^ 64 - 1) index with
      | none => none
      | some i => if h : i < MAX_MAP_BANS then some (.mapBan ⟨i, h⟩) else none
  | none =>
      match stripPrefix name QuickplayPreferences.GAMEMODE_PREF_NAME with
      | some name => (gamemodeBit name).map Slot.gamemode
      | none =>
          match name with
          | "random_crits" => some .randomCrits
          | "respawn_times" => some .respawnTimes
          | "rtd" => some .rtd
          | "class_restrictions" => some .classRestrictions
          | "objectives" => some .objectives
          | "party_size" => some .partySize
          | _ => none

/-- The value that a convar's text stands for, in a slot. -/
def Slot.decode (value : String) : (slot : Slot) → Except PreferenceDecodeError slot.Value
  | .randomCrits => decodeEnumPreference RandomCritsPreference.tryFromPrimitive value
  | .respawnTimes => decodeEnumPreference RespawnTimesPreference.tryFromPrimitive value
  | .rtd => decodeEnumPreference RtdPreference.tryFromPrimitive value
  | .classRestrictions => decodeEnumPreference ClassRestrictionsPreference.tryFromPrimitive value
  | .objectives => decodeEnumPreference ObjectivesPreference.tryFromPrimitive value
  | .partySize =>
      match parseUnsigned 255 value with
      | none => .error .UnparseableValue
      | some size => .ok (UInt8.ofNat size)
  | .mapBan _ => .ok (some value)
  | .gamemode _ =>
      match value with
      | "0" => .ok false
      | "1" => .ok true
      | _ => .error .InvalidValue

namespace QuickplayPreferences

def get (self : QuickplayPreferences) : (slot : Slot) → slot.Value
  | .randomCrits => self.randomCrits
  | .respawnTimes => self.respawnTimes
  | .rtd => self.rtd
  | .classRestrictions => self.classRestrictions
  | .objectives => self.objectives
  | .partySize => self.partySize
  | .mapBan i => self.mapBans.get i
  | .gamemode i => self.gamemodes.getLsbD i

/-- One slot set, as `update_preference` does it. -/
def set (self : QuickplayPreferences) : (slot : Slot) → slot.Value → QuickplayPreferences
  | .randomCrits, randomCrits => { self with randomCrits }
  | .respawnTimes, respawnTimes => { self with respawnTimes }
  | .rtd, rtd => { self with rtd }
  | .classRestrictions, classRestrictions => { self with classRestrictions }
  | .objectives, objectives => { self with objectives }
  | .partySize, partySize => { self with partySize }
  | .mapBan i, value => { self with mapBans := self.mapBans.set i value }
  | .gamemode (i : Fin 8), false =>
      { self with gamemodes := self.gamemodes &&& ~~~BitVec.twoPow 8 i }
  | .gamemode (i : Fin 8), true => { self with gamemodes := self.gamemodes ||| BitVec.twoPow 8 i }

/-- Setting a slot changes that slot and no other. -/
theorem get_set (self : QuickplayPreferences) (slot : Slot) (v : slot.Value) :
    (self.set slot v).get = Function.update self.get slot v := by
  funext other
  by_cases h : other = slot
  · subst h
    rw [Function.update_self]
    cases other with
    | mapBan i => exact Vector.getElem_set_self i.isLt
    | gamemode i =>
        cases v with
        | false =>
            have hclear : (self.gamemodes &&& ~~~BitVec.twoPow 8 i).getLsbD i = false := by simp
            exact hclear
        | true =>
            have hset : (self.gamemodes ||| BitVec.twoPow 8 i).getLsbD i = true := by simp
            exact hset
    | _ => rfl
  · rw [Function.update_of_ne h]
    cases slot with
    | mapBan i =>
        cases other with
        | mapBan j =>
            refine Vector.getElem_set_ne i.isLt j.isLt fun hij => h ?_
            rw [Fin.ext hij]
        | _ => rfl
    | gamemode i =>
        cases other with
        | gamemode j =>
            have hne : j.val ≠ i.val := fun hij => h (by rw [Fin.ext hij])
            cases v with
            | false =>
                have hframe : (self.gamemodes &&& ~~~BitVec.twoPow 8 i).getLsbD j =
                    self.gamemodes.getLsbD j := by simp [hne]
                exact hframe
            | true =>
                have hframe : (self.gamemodes ||| BitVec.twoPow 8 i).getLsbD j =
                    self.gamemodes.getLsbD j := by simp [hne]
                exact hframe
        | _ => cases v <;> rfl
    | _ => cases other <;> first | rfl | exact absurd rfl h

/-- `update_preference` decodes the value for the slot that is named, and sets it. -/
theorem updatePreference_eq (self : QuickplayPreferences) (name value : String) :
    self.updatePreference name value =
      match Slot.ofName name with
      | none => .error .UnknownPreference
      | some slot => (slot.decode value).map (self.set slot) := by
  unfold updatePreference Slot.ofName
  cases stripPrefix name MAP_BAN_PREF_NAME with
  | some index =>
      dsimp only
      cases parseUnsigned (2 ^ 64 - 1) index with
      | none => rfl
      | some i =>
          dsimp only
          split <;> rfl
  | none =>
      cases stripPrefix name GAMEMODE_PREF_NAME with
      | some gamemode =>
          dsimp only
          rw [fromStr_eq]
          cases gamemodeBit gamemode with
          | none => rfl
          | some i =>
              simp only [Option.map_some, Slot.decode]
              split <;> first | rfl | (simp only [*]; rfl)
      | none =>
          dsimp only
          split
          case h_6 =>
            simp only [Slot.decode]
            cases parseUnsigned 255 value <;> rfl
          case h_7 => simp only [*]; rfl
          all_goals
            simp only [Slot.decode, bind_pure_comp]
            rfl

end QuickplayPreferences

/-! ## Convars -/

namespace QuickplaySession

/-- What is left of a convar's name behind the configured prefix. -/
def preferenceName (self : QuickplaySession) (convar : String × String) : Option String :=
  stripPrefix convar.1 self.configuration.quickplay.preferenceConvarPrefix

/-- The convar has a value and the prefix. -/
def HasEffect (self : QuickplaySession) (convar : String × String) : Prop :=
  convar.2 ≠ "" ∧ (self.preferenceName convar).isSome

instance (self : QuickplaySession) (convar : String × String) : Decidable (self.HasEffect convar) :=
  inferInstanceAs (Decidable (_ ∧ _))

/-- The convar has a value, and its name is one for the slot. -/
def Targets (self : QuickplaySession) (slot : Slot) (convar : String × String) : Prop :=
  convar.2 ≠ "" ∧ ∃ name, self.preferenceName convar = some name ∧ Slot.ofName name = some slot

/-- A convar as a command for the slots. -/
def meaning (self : QuickplaySession) (convar : String × String) :
    Option (Except String (Sigma Slot.Value)) :=
  if convar.2 = "" then none
  else
    match self.preferenceName convar with
    | none => none
    | some name =>
        match Slot.ofName name with
        | none => some (.error (errorMessage name convar.2 .UnknownPreference))
        | some slot =>
            match slot.decode convar.2 with
            | .error errType => some (.error (errorMessage name convar.2 errType))
            | .ok v => some (.ok ⟨slot, v⟩)

variable {self : QuickplaySession} {convar : String × String} {slot slot' : Slot}

theorem Targets.hasEffect (h : self.Targets slot convar) : self.HasEffect convar := by
  obtain ⟨hvalue, name, hname, -⟩ := h
  exact ⟨hvalue, by rw [hname, Option.isSome_some]⟩

/-- A convar is for one slot only. -/
theorem Targets.unique (h : self.Targets slot convar) (h' : self.Targets slot' convar) :
    slot = slot' := by
  obtain ⟨-, name, hname, hslot⟩ := h
  obtain ⟨-, name', hname', hslot'⟩ := h'
  rw [hname, Option.some.injEq] at hname'
  subst hname'
  rw [hslot, Option.some.injEq] at hslot'
  exact hslot'

theorem meaning_of_not_hasEffect (h : ¬ self.HasEffect convar) : self.meaning convar = none := by
  unfold meaning
  split
  · rfl
  · rename_i hvalue
    have hname : self.preferenceName convar = none := by
      rw [← Option.not_isSome_iff_eq_none]
      exact fun hsome => h ⟨hvalue, hsome⟩
    rw [hname]

theorem meaning_eq_ok {v : slot.Value} :
    self.meaning convar = some (.ok ⟨slot, v⟩) ↔
      self.Targets slot convar ∧ slot.decode convar.2 = .ok v := by
  constructor
  · intro h
    unfold meaning at h
    split at h
    · cases h
    · rename_i hvalue
      split at h
      · cases h
      · rename_i name hname
        split at h
        · cases h
        · rename_i target hslot
          split at h
          · cases h
          · rename_i w hdecode
            cases h
            exact ⟨⟨hvalue, name, hname, hslot⟩, hdecode⟩
  · rintro ⟨⟨hvalue, name, hname, hslot⟩, hdecode⟩
    simp only [meaning, if_neg hvalue, hname, hslot, hdecode]

theorem meaning_ne_error :
    (∀ e, self.meaning convar ≠ some (.error e)) ↔
      (self.HasEffect convar → ∃ slot v, self.Targets slot convar ∧
        slot.decode convar.2 = .ok v) := by
  constructor
  · intro h heffect
    obtain ⟨hvalue, hname⟩ := heffect
    obtain ⟨name, hname⟩ := Option.isSome_iff_exists.mp hname
    cases hslot : Slot.ofName name with
    | none =>
        refine absurd ?_ (h (errorMessage name convar.2 .UnknownPreference))
        simp only [meaning, if_neg hvalue, hname, hslot]
    | some slot =>
        cases hdecode : slot.decode convar.2 with
        | error errType =>
            refine absurd ?_ (h (errorMessage name convar.2 errType))
            simp only [meaning, if_neg hvalue, hname, hslot, hdecode]
        | ok v => exact ⟨slot, v, ⟨hvalue, name, hname, hslot⟩, hdecode⟩
  · intro h e he
    by_cases heffect : self.HasEffect convar
    · obtain ⟨slot, v, htargets, hdecode⟩ := h heffect
      rw [meaning_eq_ok.mpr ⟨htargets, hdecode⟩] at he
      cases he
    · rw [meaning_of_not_hasEffect heffect] at he
      cases he

/-- One convar, as a command. -/
theorem updatePreferencesFromConvars_cons (convar : String × String)
    (convars : List (String × String)) (self : QuickplaySession) :
    updatePreferencesFromConvars (convar :: convars) self =
      match self.meaning convar with
      | none => updatePreferencesFromConvars convars self
      | some (.error message) => (.error message, self)
      | some (.ok write) =>
          updatePreferencesFromConvars convars
            { self with preferences := self.preferences.set write.1 write.2 } := by
  obtain ⟨name, value⟩ := convar
  rw [updatePreferencesFromConvars]
  unfold meaning preferenceName
  by_cases hvalue : value = ""
  · simp [hvalue]
  · simp only [String.isEmpty_iff, hvalue, if_false]
    cases stripPrefix name self.configuration.quickplay.preferenceConvarPrefix with
    | none => rfl
    | some name =>
        simp only [QuickplayPreferences.updatePreference_eq]
        cases Slot.ofName name with
        | none => rfl
        | some slot =>
            dsimp only
            cases slot.decode value <;> rfl

/-- The convars are a script for the slots. -/
theorem updatePreferencesFromConvars_execute (convars : List (String × String))
    (self : QuickplaySession) :
    let result := Registers.execute self.meaning convars self.preferences.get
    (updatePreferencesFromConvars convars self).1 = result.1 ∧
      (updatePreferencesFromConvars convars self).2.preferences.get = result.2 := by
  induction convars generalizing self with
  | nil => exact ⟨rfl, rfl⟩
  | cons convar convars ih =>
      rw [updatePreferencesFromConvars_cons]
      cases hmeaning : self.meaning convar with
      | none =>
          rw [Registers.execute_cons_none hmeaning]
          exact ih self
      | some result =>
          cases result with
          | error message =>
              rw [Registers.execute_cons_error hmeaning]
              exact ⟨rfl, rfl⟩
          | ok write =>
              rw [Registers.execute_cons_ok hmeaning, ← QuickplayPreferences.get_set]
              exact ih _

/-- Convars without an effect can be left out. -/
theorem updatePreferencesFromConvars_filter (convars : List (String × String))
    (self : QuickplaySession) :
    updatePreferencesFromConvars (convars.filter fun convar => self.HasEffect convar) self =
      updatePreferencesFromConvars convars self := by
  induction convars generalizing self with
  | nil => rfl
  | cons convar convars ih =>
      by_cases heffect : self.HasEffect convar
      · rw [List.filter_cons_of_pos (by simpa using heffect), updatePreferencesFromConvars_cons,
          updatePreferencesFromConvars_cons]
        cases self.meaning convar with
        | none => exact ih self
        | some result =>
            cases result with
            | error message => rfl
            | ok write => exact ih { self with preferences := self.preferences.set write.1 write.2 }
      · rw [List.filter_cons_of_neg (by simpa using heffect), updatePreferencesFromConvars_cons,
          meaning_of_not_hasEffect heffect]
        exact ih self

/-- The last convar for a slot says what it holds, convars without an effect
can be left out, and the update succeeds exactly if every other convar names a
slot and has a value for it.  An index of a map ban may be spelled in any way
that parses to it. -/
theorem updatePreferencesFromConvars_spec (convars : List (String × String))
    (self : QuickplaySession) :
    ((updatePreferencesFromConvars convars self).1 = .ok () ↔
      ∀ convar ∈ convars, self.HasEffect convar →
        ∃ slot v, self.Targets slot convar ∧ slot.decode convar.2 = .ok v) ∧
    ((updatePreferencesFromConvars convars self).1 = .ok () → ∀ slot : Slot,
      (∀ before convar after, convars = before ++ convar :: after → self.Targets slot convar →
        (∀ later ∈ after, ¬ self.Targets slot later) →
        slot.decode convar.2 =
          .ok ((updatePreferencesFromConvars convars self).2.preferences.get slot)) ∧
      ((∀ convar ∈ convars, ¬ self.Targets slot convar) →
        (updatePreferencesFromConvars convars self).2.preferences.get slot =
          self.preferences.get slot)) ∧
    updatePreferencesFromConvars (convars.filter fun convar => self.HasEffect convar) self =
      updatePreferencesFromConvars convars self ∧
    ∀ (index : String) (i : Fin MAX_MAP_BANS), parseUnsigned (2 ^ 64 - 1) index = some i.val →
      Slot.ofName (QuickplayPreferences.MAP_BAN_PREF_NAME ++ index) = some (.mapBan i) := by
  obtain ⟨hresult, hslots⟩ := updatePreferencesFromConvars_execute convars self
  have hok : (updatePreferencesFromConvars convars self).1 = .ok () ↔
      ∀ convar ∈ convars, self.HasEffect convar →
        ∃ slot v, self.Targets slot convar ∧ slot.decode convar.2 = .ok v := by
    rw [hresult, Registers.execute_eq_ok_iff]
    exact forall₂_congr fun convar _ => meaning_ne_error
  refine ⟨hok, fun h slot => ⟨?_, ?_⟩, updatePreferencesFromConvars_filter convars self, ?_⟩
  · intro before convar after hconvars htargets hafter
    have hmem : convar ∈ convars := by simp [hconvars]
    obtain ⟨slot', v, htargets', hdecode⟩ := hok.mp h convar hmem htargets.hasEffect
    obtain rfl := htargets.unique htargets'
    have hlast : _ = v := Registers.execute_of_last (hresult ▸ h) hconvars
      (meaning_eq_ok.mpr ⟨htargets, hdecode⟩)
      fun later hlater w hw => hafter later hlater (meaning_eq_ok.mp hw).1
    rw [hdecode, hslots, hlast]
  · intro hnone
    rw [hslots]
    exact Registers.execute_of_forall_ne fun convar hconvar v hv =>
      hnone convar hconvar (meaning_eq_ok.mp hv).1
  · intro index i hindex
    simp only [Slot.ofName, stripPrefix_append, hindex, i.isLt, dif_pos]

/-- Two spellings of one map ban, and a convar without a value. -/
def mapBanConvars : List (String × String) :=
  [("rqp_map_ban_1", "cp_dustbowl"), ("rqp_map_ban_+01", "pl_upward"), ("rqp_map_ban_1", "")]

theorem updatePreferencesFromConvars_mapBanConvars :
    (updatePreferencesFromConvars mapBanConvars
      (new Configuration.loadDefault)).2.preferences.get (.mapBan ⟨1, by decide⟩) =
        some "pl_upward" := by
  have hspec := updatePreferencesFromConvars_spec mapBanConvars (new Configuration.loadDefault)
  have hlast := (hspec.2.1 (by decide +kernel) (.mapBan ⟨1, by decide⟩)).1
    [("rqp_map_ban_1", "cp_dustbowl")] ("rqp_map_ban_+01", "pl_upward") [("rqp_map_ban_1", "")] rfl
    ⟨by decide, "map_ban_+01", by decide +kernel, by decide +kernel⟩ (by simp [Targets])
  exact (Except.ok.inj hlast).symm

end QuickplaySession

end QuickplayServer.Quickplay
