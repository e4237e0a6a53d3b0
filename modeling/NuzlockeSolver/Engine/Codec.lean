import NuzlockeSolver.Engine.Json
import NuzlockeSolver.Engine.State

/-!
# The typed JSON codec of the battle state

Records are tagged with `__type__`, enumerations with `__enum__`, tuples with `__tuple__` and sets
with `__frozenset__`. A vector that does not fit its capacity aborts.
-/

namespace NuzlockeSolver

namespace Engine

open Json

section Tags

def encodeEnum (className : String) (value : Int32) : Json :=
  object [("__enum__", .str className), ("name", .str (toString value)), ("value", ofInt32 value)]

def tupleOf (l : List Json) : Json := object [("__tuple__", .arr l)]

def frozensetOf (l : List Json) : Json := object [("__frozenset__", .arr l)]

def record (typeName : String) (fields : List (String × Json)) : Json :=
  object [("__type__", .str typeName), ("fields", object fields)]

def optionalField (present : Bool) (j : Json) : Json := if present then j else .null

variable (T : JsonText)

def requireField (obj : Json) (key : String) : Except JsonFault Json :=
  match obj.get? key with
  | some v => .ok v
  | none => .error (.decode ("codec: missing required field '" ++ key ++ "' in: " ++ T.dump obj))

def requireType (obj : Json) (expectedType : String) : Except JsonFault Json := do
  let typeField ← requireField T obj "__type__"
  let got ← typeField.getString
  if got ≠ expectedType then
    throw (.decode ("codec: expected __type__='" ++ expectedType ++ "' but got '" ++ got ++ "'"))
  requireField T obj "fields"

def decodeEnum (obj : Json) (expectedClass : String) : Except JsonFault Int32 :=
  match obj.get? "__enum__" with
  | none => .error (.decode ("codec: expected __enum__ tag, got: " ++ T.dump obj))
  | some e => do
    let got ← e.getString
    if got ≠ expectedClass then
      throw (.decode ("codec: expected __enum__='" ++ expectedClass ++ "' but got '" ++ got ++ "'"))
    (← requireField T obj "value").getInt32

def decodeEnumOrInt (obj : Json) (expectedClass : String) : Except JsonFault Int32 :=
  match obj with
  | .int _ => obj.getInt32
  | _ => decodeEnum T obj expectedClass

def requireTuple (obj : Json) : Except JsonFault Json :=
  match obj.get? "__tuple__" with
  | some v => .ok v
  | none => .error (.decode ("codec: expected __tuple__ tag, got: " ++ T.dump obj))

def requireFrozenset (obj : Json) : Except JsonFault Json :=
  match obj.get? "__frozenset__" with
  | some v => .ok v
  | none => .error (.decode ("codec: expected __frozenset__ tag, got: " ++ T.dump obj))

def requireTupleOf (n : Nat) (wrongSize : String) (obj : Json) : Except JsonFault Json := do
  let t ← requireTuple T obj
  if t.size ≠ n then throw (.decode wrongSize)
  pure t

/-- A tuple of `n` integers. -/
def decodeInts (n : Nat) (wrongSize : String) (obj : Json) : Except JsonFault (List Int32) := do
  let t ← requireTupleOf T n wrongSize obj
  (← t.indexed).mapM getInt32

/-- A tuple of at most `n` values, padded with zeros. -/
def decodePadded (n : Nat) (tooLong : String) (read : Json → Except JsonFault Int32) (obj : Json) :
    Except JsonFault (List Int32) := do
  let t ← requireTuple T obj
  if t.size > n then throw (.decode tooLong)
  let values ← (← t.indexed).mapM read
  pure (values ++ List.replicate (n - values.length) 0)

def decodeEnumPair (expectedClass wrongSize : String) (entry : Json) :
    Except JsonFault (Int32 × Int32) := do
  let pair ← requireTupleOf T 2 wrongSize entry
  let value ← decodeEnum T (← pair.index 0) expectedClass
  let turns ← (← pair.index 1).getInt32
  pure (value, turns)

def encodeEnumPair (className : String) (value : Int32) (turns : Json) : Json :=
  tupleOf [encodeEnum className value, turns]

def decodeOptional {α : Type} (read : Json → Except JsonFault α) (j : Json) :
    Except JsonFault (Option α) :=
  if j.isNull then pure none else some <$> read j

def requireList (notList : String) (j : Json) : Except JsonFault (List Json) :=
  if j.isArray then pure j.elems else throw (.decode notList)

def pushAll {α β : Type} {cap : Nat} (read : β → Except JsonFault α) :
    InlineVec α cap → List β → Except JsonFault (InlineVec α cap)
  | v, [] => .ok v
  | v, b :: bs => do
    let a ← read b
    match v.pushBack a with
    | some v => pushAll read v bs
    | none => .error (.abort "InlineVec push_back overflow")

end Tags

section Pokemon

variable (T : JsonText)

def decodeTimedVolatile (wrongSize : String) (entry : Json) : Except JsonFault TimedVolatile := do
  let pair ← decodeEnumPair T "VolatileEffect" wrongSize entry
  pure { effect := pair.1, turns := pair.2 }

def encodeTimedVolatile (tv : TimedVolatile) : Json :=
  encodeEnumPair "VolatileEffect" tv.effect (ofInt32 tv.turns)

def decodeTypes (j : Json) : Except JsonFault (InlineVec Int32 pokemonTypesCap) := do
  let tv ← requireTuple T j
  pushAll (decodeEnum T · "Type") .empty tv.elems

def decodeTimedVolatiles (raw : Json) :
    Except JsonFault (InlineVec TimedVolatile pokemonTimedVolatilesCap) := do
  let tv ← if raw.isObject then requireTuple T raw else pure raw
  let entries ← requireList "codec: timed_volatiles must be a list" tv
  pushAll (decodeTimedVolatile T "codec: timed_volatile entry must be 2-tuple") .empty entries

def decodePokemonState (obj : Json) : Except JsonFault PokemonState := do
  let f ← requireType T obj "PokemonState"
  let species ← decodeEnum T (← requireField T f "species") "Species"
  let nature ← decodeEnum T (← requireField T f "nature") "Nature"
  let ivs ← decodeInts T 6 "codec: ivs tuple must have 6 elements" (← requireField T f "ivs")
  let gender ← decodeEnum T (← requireField T f "gender") "GenderEnum"
  let level ← (← requireField T f "level").getInt32
  let exp ← (← requireField T f "exp").getInt32
  let ability ← decodeEnum T (← requireField T f "ability") "Ability"
  let item ← decodeEnum T (← requireField T f "item") "Item"
  let status ← decodeEnum T (← requireField T f "status") "Status"
  let moveIds ← decodePadded T 4 "codec: move_ids must have at most 4 elements"
    (decodeEnum T · "Move") (← requireField T f "move_ids")
  let movePp ← decodePadded T 4 "codec: move_pp must have at most 4 elements"
    getInt32 (← requireField T f "move_pp")
  let stats ← decodeOptional (decodeInts T 6 "codec: stats must have 6 elements")
    (← requireField T f "stats")
  let maxHp ← decodeOptional getInt32 (← requireField T f "max_hp")
  let hp ← decodeOptional getInt32 (← requireField T f "hp")
  let types ← decodeOptional (decodeTypes T) (← requireField T f "types")
  let stages ← decodeInts T 7 "codec: stat_stages must have 7 elements"
    (← requireField T f "stat_stages")
  let volatiles ← decodeEnumOrInt T (← requireField T f "volatiles") "Volatile"
  let timedVolatiles ← decodeTimedVolatiles T (← requireField T f "timed_volatiles")
  let turnsInBattle ← (← requireField T f "turns_in_battle").getInt32
  let toxicTurns ← (← requireField T f "toxic_turns").getInt32
  let sleepTurns ← (← requireField T f "sleep_turns").getInt32
  let confusionTurns ← (← requireField T f "confusion_turns").getInt32
  let isRestSleep ← (← requireField T f "is_rest_sleep").getBool
  let lockedSlot ← (← requireField T f "locked_slot").getInt32
  let chargingMoveSlot ← (← requireField T f "charging_move_slot").getInt32
  let subHp ← (← requireField T f "sub_hp").getInt32
  let lastUsedSlot ← (← requireField T f "last_used_slot").getInt32
  let fainted ← (← requireField T f "fainted").getBool
  let hasActed ← (← requireField T f "has_acted").getBool
  let critStage ← (← requireField T f "crit_stage").getInt32
  let metronomeCount ← (← requireField T f "metronome_count").getInt32
  let metronomeLastMove ← (← requireField T f "metronome_last_move").getInt32
  let mirrorMoveLastMove ← decodeEnumOrInt T (← requireField T f "mirror_move_last_move") "Move"
  let consumedBerry ← decodeEnum T (← requireField T f "consumed_berry") "Item"
  let tookDamageThisTurn ← (← requireField T f "took_damage_this_turn").getBool
  let hadStatLoweredThisTurn ← (← requireField T f "had_stat_lowered_this_turn").getBool
  let hadStatRaisedThisTurn ← (← requireField T f "had_stat_raised_this_turn").getBool
  let lastMoveFailed ← (← requireField T f "last_move_failed").getBool
  let lastPhysicalDamageTaken ← (← requireField T f "last_physical_damage_taken").getInt32
  let lastSpecialDamageTaken ← (← requireField T f "last_special_damage_taken").getInt32
  let lastDamageTaken ← (← requireField T f "last_damage_taken").getInt32
  let suckerPunchLastTurn ← (← requireField T f "sucker_punch_last_turn").getBool
  let baseAbility ← decodeEnum T (← requireField T f "base_ability") "Ability"
  let savedAbility ← decodeEnum T (← requireField T f "saved_ability") "Ability"
  let isMega ← (← requireField T f "is_mega").getBool
  let movesUsed ← (← requireField T f "moves_used").getInt32
  let rolloutHits ← (← requireField T f "rollout_hits").getInt32
  let defenseCurlUsed ← (← requireField T f "defense_curl_used").getBool
  let weightKgReduced ← (← requireField T f "weight_kg_reduced").getDouble
  let protectCounter ← (← requireField T f "protect_counter").getInt32
  let stockpileCount ← (← requireField T f "stockpile_count").getInt32
  let stockpileDefBoost ← (← requireField T f "stockpile_def_boost").getInt32
  let stockpileSpdBoost ← (← requireField T f "stockpile_spd_boost").getInt32
  pure {
    species := species, nature := nature
    ivHp := ivs.getD 0 0, ivAtk := ivs.getD 1 0, ivDef := ivs.getD 2 0
    ivSpa := ivs.getD 3 0, ivSpd := ivs.getD 4 0, ivSpe := ivs.getD 5 0
    gender := gender, level := level, exp := exp
    ability := ability, item := item, status := status
    moveId0 := moveIds.getD 0 0, moveId1 := moveIds.getD 1 0
    moveId2 := moveIds.getD 2 0, moveId3 := moveIds.getD 3 0
    movePp0 := movePp.getD 0 0, movePp1 := movePp.getD 1 0
    movePp2 := movePp.getD 2 0, movePp3 := movePp.getD 3 0
    hasStats := stats.isSome
    statHp := (stats.getD []).getD 0 0, statAtk := (stats.getD []).getD 1 0
    statDef := (stats.getD []).getD 2 0, statSpa := (stats.getD []).getD 3 0
    statSpd := (stats.getD []).getD 4 0, statSpe := (stats.getD []).getD 5 0
    hasMaxHp := maxHp.isSome, maxHp := maxHp.getD 0
    hasHp := hp.isSome, hp := hp.getD 0
    hasTypes := types.isSome, types := types.getD .empty
    stage0 := stages.getD 0 0, stage1 := stages.getD 1 0, stage2 := stages.getD 2 0
    stage3 := stages.getD 3 0, stage4 := stages.getD 4 0, stage5 := stages.getD 5 0
    stage6 := stages.getD 6 0
    volatiles := volatiles, timedVolatiles := timedVolatiles
    turnsInBattle := turnsInBattle, toxicTurns := toxicTurns, sleepTurns := sleepTurns
    confusionTurns := confusionTurns, isRestSleep := isRestSleep, lockedSlot := lockedSlot
    chargingMoveSlot := chargingMoveSlot, subHp := subHp, lastUsedSlot := lastUsedSlot
    fainted := fainted, hasActed := hasActed, critStage := critStage
    metronomeCount := metronomeCount, metronomeLastMove := metronomeLastMove
    mirrorMoveLastMove := mirrorMoveLastMove, consumedBerry := consumedBerry
    tookDamageThisTurn := tookDamageThisTurn
    hadStatLoweredThisTurn := hadStatLoweredThisTurn
    hadStatRaisedThisTurn := hadStatRaisedThisTurn, lastMoveFailed := lastMoveFailed
    lastPhysicalDamageTaken := lastPhysicalDamageTaken
    lastSpecialDamageTaken := lastSpecialDamageTaken, lastDamageTaken := lastDamageTaken
    suckerPunchLastTurn := suckerPunchLastTurn, baseAbility := baseAbility
    savedAbility := savedAbility, isMega := isMega, movesUsed := movesUsed
    rolloutHits := rolloutHits, defenseCurlUsed := defenseCurlUsed
    weightKgReduced := weightKgReduced, protectCounter := protectCounter
    stockpileCount := stockpileCount, stockpileDefBoost := stockpileDefBoost
    stockpileSpdBoost := stockpileSpdBoost }

def pokemonFields (p : PokemonState) : List (String × Json) :=
  [("species", encodeEnum "Species" p.species),
    ("nature", encodeEnum "Nature" p.nature),
    ("ivs", tupleOf ([p.ivHp, p.ivAtk, p.ivDef, p.ivSpa, p.ivSpd, p.ivSpe].map ofInt32)),
    ("gender", encodeEnum "GenderEnum" p.gender),
    ("level", ofInt32 p.level),
    ("exp", ofInt32 p.exp),
    ("ability", encodeEnum "Ability" p.ability),
    ("item", encodeEnum "Item" p.item),
    ("status", encodeEnum "Status" p.status),
    ("move_ids", tupleOf ([p.moveId0, p.moveId1, p.moveId2, p.moveId3].map (encodeEnum "Move"))),
    ("move_pp", tupleOf ([p.movePp0, p.movePp1, p.movePp2, p.movePp3].map ofInt32)),
    ("stats", optionalField p.hasStats
      (tupleOf ([p.statHp, p.statAtk, p.statDef, p.statSpa, p.statSpd, p.statSpe].map ofInt32))),
    ("max_hp", optionalField p.hasMaxHp (ofInt32 p.maxHp)),
    ("hp", optionalField p.hasHp (ofInt32 p.hp)),
    ("types", optionalField p.hasTypes (tupleOf (p.types.toList.map (encodeEnum "Type")))),
    ("stat_stages", tupleOf
      ([p.stage0, p.stage1, p.stage2, p.stage3, p.stage4, p.stage5, p.stage6].map ofInt32)),
    ("volatiles", ofInt32 p.volatiles),
    ("timed_volatiles", .arr (p.timedVolatiles.toList.map encodeTimedVolatile)),
    ("turns_in_battle", ofInt32 p.turnsInBattle),
    ("toxic_turns", ofInt32 p.toxicTurns),
    ("sleep_turns", ofInt32 p.sleepTurns),
    ("confusion_turns", ofInt32 p.confusionTurns),
    ("is_rest_sleep", .bool p.isRestSleep),
    ("locked_slot", ofInt32 p.lockedSlot),
    ("charging_move_slot", ofInt32 p.chargingMoveSlot),
    ("sub_hp", ofInt32 p.subHp),
    ("last_used_slot", ofInt32 p.lastUsedSlot),
    ("fainted", .bool p.fainted),
    ("has_acted", .bool p.hasActed),
    ("crit_stage", ofInt32 p.critStage),
    ("metronome_count", ofInt32 p.metronomeCount),
    ("metronome_last_move", ofInt32 p.metronomeLastMove),
    ("mirror_move_last_move", ofInt32 p.mirrorMoveLastMove),
    ("consumed_berry", encodeEnum "Item" p.consumedBerry),
    ("took_damage_this_turn", .bool p.tookDamageThisTurn),
    ("had_stat_lowered_this_turn", .bool p.hadStatLoweredThisTurn),
    ("had_stat_raised_this_turn", .bool p.hadStatRaisedThisTurn),
    ("last_move_failed", .bool p.lastMoveFailed),
    ("last_physical_damage_taken", ofInt32 p.lastPhysicalDamageTaken),
    ("last_special_damage_taken", ofInt32 p.lastSpecialDamageTaken),
    ("last_damage_taken", ofInt32 p.lastDamageTaken),
    ("sucker_punch_last_turn", .bool p.suckerPunchLastTurn),
    ("base_ability", encodeEnum "Ability" p.baseAbility),
    ("saved_ability", encodeEnum "Ability" p.savedAbility),
    ("is_mega", .bool p.isMega),
    ("moves_used", ofInt32 p.movesUsed),
    ("rollout_hits", ofInt32 p.rolloutHits),
    ("defense_curl_used", .bool p.defenseCurlUsed),
    ("weight_kg_reduced", .float p.weightKgReduced),
    ("protect_counter", ofInt32 p.protectCounter),
    ("stockpile_count", ofInt32 p.stockpileCount),
    ("stockpile_def_boost", ofInt32 p.stockpileDefBoost),
    ("stockpile_spd_boost", ofInt32 p.stockpileSpdBoost)]

def encodePokemonState (p : PokemonState) : Json := record "PokemonState" (pokemonFields p)

end Pokemon

section Side

variable (T : JsonText)

def decodeSideCondition (entry : Json) : Except JsonFault SideConditionEntry := do
  let pair ← decodeEnumPair T "SideCondition" "codec: side_condition entry must be 2-tuple" entry
  pure { condition := pair.1, turns := pair.2.toInt8 }

def encodeSideCondition (sce : SideConditionEntry) : Json :=
  encodeEnumPair "SideCondition" sce.condition (ofInt8 sce.turns)

def decodeBatonPass (j : Json) : Except JsonFault BatonPassData := do
  let outer ← requireTupleOf T 5 "codec: baton_pass_data outer must be 5-tuple" j
  let st ← decodeInts T 7 "codec: baton_pass_data stat_stages must be 7-tuple" (← outer.index 0)
  let volatilesBitmask ← decodeEnumOrInt T (← outer.index 1) "Volatile"
  let tv ← requireTuple T (← outer.index 2)
  let timedVolatiles ← pushAll
    (decodeTimedVolatile T "codec: baton_pass_data tv entry must be 2-tuple") .empty tv.elems
  let critStage ← (← outer.index 3).getInt32
  let subHp ← (← outer.index 4).getInt32
  pure {
    stage0 := st.getD 0 0, stage1 := st.getD 1 0, stage2 := st.getD 2 0, stage3 := st.getD 3 0
    stage4 := st.getD 4 0, stage5 := st.getD 5 0, stage6 := st.getD 6 0
    volatilesBitmask := volatilesBitmask, critStage := critStage, subHp := subHp
    timedVolatiles := timedVolatiles }

def encodeBatonPass (bp : BatonPassData) : Json :=
  tupleOf [
    tupleOf ([bp.stage0, bp.stage1, bp.stage2, bp.stage3, bp.stage4, bp.stage5, bp.stage6].map
      ofInt32),
    encodeEnum "Volatile" bp.volatilesBitmask,
    tupleOf (bp.timedVolatiles.toList.map encodeTimedVolatile),
    ofInt32 bp.critStage,
    ofInt32 bp.subHp]

def decodeFutureSight (j : Json) : Except JsonFault (List Int32) := do
  let ft ← requireTupleOf T 4 "codec: future_sight_pending must be 4-tuple" j
  let turns ← (← ft.index 0).getInt32
  let damage ← (← ft.index 1).getInt32
  let move ← decodeEnum T (← ft.index 2) "Move"
  let targetSlot ← (← ft.index 3).getInt32
  pure [turns, damage, move, targetSlot]

def decodeImprisonedMoves (j : Json) :
    Except JsonFault (InlineVec Int32 sideImprisonedMovesCap) := do
  let arr ← requireFrozenset T j
  let moves ← pushAll (decodeEnum T · "Move") .empty arr.elems
  pure ⟨moves.toList.mergeSort (· ≤ ·), by rw [List.length_mergeSort]; exact moves.size_le⟩

def decodeSideState (obj : Json) : Except JsonFault SideState := do
  let f ← requireType T obj "SideState"
  let mons ← requireList "codec: SideState.team must be a list" (← requireField T f "team")
  let team ← pushAll (decodePokemonState T) .empty mons
  let format ← decodeEnum T (← requireField T f "format") "FormatEnum"
  let ai ← requireList "codec: active_indices must be a list" (← requireField T f "active_indices")
  let activeIndices ← pushAll getInt32 .empty ai
  let sc ← requireList "codec: side_conditions must be a list"
    (← requireField T f "side_conditions")
  let sideConditions ← pushAll (decodeSideCondition T) .empty sc
  let megaUsed ← (← requireField T f "mega_used").getBool
  let bp ← decodeOptional (decodeBatonPass T) (← requireField T f "baton_pass_data")
  let allyFaintedLastTurn ← (← requireField T f "ally_fainted_last_turn").getBool
  let wish ← decodeOptional (decodeInts T 3 "codec: wish_pending must be 3-tuple")
    (← requireField T f "wish_pending")
  let fs ← decodeOptional (decodeFutureSight T) (← requireField T f "future_sight_pending")
  let imprisonedMoves ← decodeImprisonedMoves T (← requireField T f "imprisoned_moves")
  let redirectTarget ← (← requireField T f "redirect_target").getInt32
  let redirectIsRagePowder ← (← requireField T f "redirect_is_rage_powder").getBool
  pure {
    team := team, format := format, activeIndices := activeIndices
    sideConditions := sideConditions, megaUsed := megaUsed
    hasBatonPassData := bp.isSome, batonPassData := bp.getD {}
    allyFaintedLastTurn := allyFaintedLastTurn
    hasWishPending := wish.isSome
    wishTurns := ((wish.getD []).getD 0 0).toInt8, wishHp := (wish.getD []).getD 1 0
    wishSlot := (wish.getD []).getD 2 0
    hasFutureSightPending := fs.isSome
    fsTurns := ((fs.getD []).getD 0 0).toInt8, fsDamage := (fs.getD []).getD 1 0
    fsMove := (fs.getD []).getD 2 0, fsTargetSlot := (fs.getD []).getD 3 0
    imprisonedMoves := imprisonedMoves, redirectTarget := redirectTarget
    redirectIsRagePowder := redirectIsRagePowder }

def sideFields (s : SideState) : List (String × Json) :=
  [("team", .arr (s.team.toList.map encodePokemonState)),
    ("format", encodeEnum "FormatEnum" s.format),
    ("active_indices", .arr (s.activeIndices.toList.map ofInt32)),
    ("side_conditions", .arr (s.sideConditions.toList.map encodeSideCondition)),
    ("mega_used", .bool s.megaUsed),
    ("baton_pass_data", optionalField s.hasBatonPassData (encodeBatonPass s.batonPassData)),
    ("ally_fainted_last_turn", .bool s.allyFaintedLastTurn),
    ("wish_pending", optionalField s.hasWishPending
      (tupleOf [ofInt8 s.wishTurns, ofInt32 s.wishHp, ofInt32 s.wishSlot])),
    ("future_sight_pending", optionalField s.hasFutureSightPending
      (tupleOf [ofInt8 s.fsTurns, ofInt32 s.fsDamage, encodeEnum "Move" s.fsMove,
        ofInt32 s.fsTargetSlot])),
    ("imprisoned_moves", frozensetOf (s.imprisonedMoves.toList.map (encodeEnum "Move"))),
    ("redirect_target", ofInt32 s.redirectTarget),
    ("redirect_is_rage_powder", .bool s.redirectIsRagePowder)]

def encodeSideState (s : SideState) : Json := record "SideState" (sideFields s)

end Side

section Battle

variable (T : JsonText)

def decodePseudoWeather (entry : Json) : Except JsonFault PseudoWeatherEntry := do
  let pair ← decodeEnumPair T "PseudoWeather" "codec: pseudo_weather entry must be 2-tuple" entry
  pure { effect := pair.1, turns := pair.2.toInt8 }

def encodePseudoWeather (pwe : PseudoWeatherEntry) : Json :=
  encodeEnumPair "PseudoWeather" pwe.effect (ofInt8 pwe.turns)

def decodeExpParticipants (j : Json) : Except JsonFault ExpParticipantSet := do
  let inner ← requireFrozenset T j
  let participants ← inner.elems.mapM getInt32
  let members ← pushAll .ok .empty (participants.mergeSort (· ≤ ·))
  pure { members := members }

def encodeExpParticipants (eps : ExpParticipantSet) : Json :=
  frozensetOf (eps.members.toList.map ofInt32)

def decodeBattleState (obj : Json) : Except JsonFault BattleState := do
  let f ← requireType T obj "BattleState"
  let sides ← requireTupleOf T 2 "codec: sides must be a 2-tuple" (← requireField T f "sides")
  let side0 ← decodeSideState T (← sides.index 0)
  let side1 ← decodeSideState T (← sides.index 1)
  let weather ← decodeEnum T (← requireField T f "weather") "WeatherEnum"
  let weatherTurns ← (← requireField T f "weather_turns").getInt32
  let terrain ← decodeEnum T (← requireField T f "terrain") "TerrainEnum"
  let terrainTurns ← (← requireField T f "terrain_turns").getInt32
  let pw ← requireList "codec: pseudo_weather must be a list" (← requireField T f "pseudo_weather")
  let pseudoWeather ← pushAll (decodePseudoWeather T) .empty pw
  let turnNumber ← (← requireField T f "turn_number").getInt32
  let echoedVoiceMultiplier ← (← requireField T f "echoed_voice_multiplier").getInt32
  let echoedVoiceUsedThisTurn ← (← requireField T f "echoed_voice_used_this_turn").getBool
  let battleLastMove ← decodeEnumOrInt T (← requireField T f "battle_last_move") "Move"
  let format ← decodeEnum T (← requireField T f "format") "FormatEnum"
  let order ← requireList "codec: turn_order must be a list" (← requireField T f "turn_order")
  let turnOrder ← pushAll getInt32 .empty order
  let prevOrder ← requireTuple T (← requireField T f "prev_turn_order")
  let prevTurnOrder ← pushAll getInt32 .empty prevOrder.elems
  let isTrainerBattle ← (← requireField T f "is_trainer_battle").getBool
  let levelCap ← decodeOptional getInt32 (← requireField T f "level_cap")
  let ep ← requireTuple T (← requireField T f "exp_participants")
  let expParticipants ← pushAll (decodeExpParticipants T) .empty ep.elems
  pure {
    side0 := side0, side1 := side1
    weather := weather, weatherTurns := weatherTurns.toInt8
    terrain := terrain, terrainTurns := terrainTurns.toInt8
    pseudoWeather := pseudoWeather, turnNumber := turnNumber
    echoedVoiceMultiplier := echoedVoiceMultiplier
    echoedVoiceUsedThisTurn := echoedVoiceUsedThisTurn
    battleLastMove := battleLastMove, format := format
    turnOrder := turnOrder, prevTurnOrder := prevTurnOrder, isTrainerBattle := isTrainerBattle
    hasLevelCap := levelCap.isSome, levelCap := levelCap.getD 0
    expParticipants := expParticipants }

def battleFields (b : BattleState) : List (String × Json) :=
  [("sides", tupleOf [encodeSideState b.side0, encodeSideState b.side1]),
    ("weather", encodeEnum "WeatherEnum" b.weather),
    ("weather_turns", ofInt8 b.weatherTurns),
    ("terrain", encodeEnum "TerrainEnum" b.terrain),
    ("terrain_turns", ofInt8 b.terrainTurns),
    ("pseudo_weather", .arr (b.pseudoWeather.toList.map encodePseudoWeather)),
    ("turn_number", ofInt32 b.turnNumber),
    ("echoed_voice_multiplier", ofInt32 b.echoedVoiceMultiplier),
    ("echoed_voice_used_this_turn", .bool b.echoedVoiceUsedThisTurn),
    ("battle_last_move", ofInt32 b.battleLastMove),
    ("format", encodeEnum "FormatEnum" b.format),
    ("turn_order", .arr (b.turnOrder.toList.map ofInt32)),
    ("prev_turn_order", tupleOf (b.prevTurnOrder.toList.map ofInt32)),
    ("is_trainer_battle", .bool b.isTrainerBattle),
    ("level_cap", optionalField b.hasLevelCap (ofInt32 b.levelCap)),
    ("exp_participants", tupleOf (b.expParticipants.toList.map encodeExpParticipants))]

def encodeBattleState (b : BattleState) : Json := record "BattleState" (battleFields b)

end Battle

def battleStateFromJson (T : JsonText) (s : String) : Except JsonFault BattleState := do
  decodeBattleState T (← T.parse s)

def battleStateToJson (T : JsonText) (state : BattleState) : String :=
  T.dump (encodeBattleState state)

end Engine

end NuzlockeSolver
