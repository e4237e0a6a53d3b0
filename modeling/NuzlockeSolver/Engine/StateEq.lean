import NuzlockeSolver.Engine.State

/-!
# Equality of engine states

Optional values are compared only when present. Set-valued fields are compared as vectors; one out
of order aborts the program, which is `none` here.
-/

namespace NuzlockeSolver

namespace Engine

def equalTimed {cap : Nat} (a b : InlineVec TimedVolatile cap) : Bool :=
  a.toList.length == b.toList.length &&
    (a.toList.zip b.toList).all fun p => p.1.effect == p.2.effect && p.1.turns == p.2.turns

def equalSideConditions {cap : Nat} (a b : InlineVec SideConditionEntry cap) : Bool :=
  a.toList.length == b.toList.length &&
    (a.toList.zip b.toList).all fun p => p.1.condition == p.2.condition && p.1.turns == p.2.turns

def equalPseudo {cap : Nat} (a b : InlineVec PseudoWeatherEntry cap) : Bool :=
  a.toList.length == b.toList.length &&
    (a.toList.zip b.toList).all fun p => p.1.effect == p.2.effect && p.1.turns == p.2.turns

def equalBatonPass (a b : BatonPassData) : Bool :=
  a.stage0 == b.stage0 && a.stage1 == b.stage1 && a.stage2 == b.stage2 &&
    a.stage3 == b.stage3 && a.stage4 == b.stage4 && a.stage5 == b.stage5 &&
    a.stage6 == b.stage6 &&
    a.volatilesBitmask == b.volatilesBitmask &&
    a.critStage == b.critStage && a.subHp == b.subHp &&
    equalTimed a.timedVolatiles b.timedVolatiles

def PokemonState.stateEqual (a b : PokemonState) : Bool :=
  a.species == b.species && a.nature == b.nature &&
    a.ivHp == b.ivHp && a.ivAtk == b.ivAtk && a.ivDef == b.ivDef &&
    a.ivSpa == b.ivSpa && a.ivSpd == b.ivSpd && a.ivSpe == b.ivSpe &&
    a.gender == b.gender && a.level == b.level && a.exp == b.exp &&
    a.ability == b.ability && a.item == b.item && a.status == b.status &&
    a.moveId0 == b.moveId0 && a.moveId1 == b.moveId1 &&
    a.moveId2 == b.moveId2 && a.moveId3 == b.moveId3 &&
    a.movePp0 == b.movePp0 && a.movePp1 == b.movePp1 &&
    a.movePp2 == b.movePp2 && a.movePp3 == b.movePp3 &&
    a.hasStats == b.hasStats &&
    (!a.hasStats ||
      (a.statHp == b.statHp && a.statAtk == b.statAtk && a.statDef == b.statDef &&
        a.statSpa == b.statSpa && a.statSpd == b.statSpd && a.statSpe == b.statSpe)) &&
    a.hasMaxHp == b.hasMaxHp && (!a.hasMaxHp || a.maxHp == b.maxHp) &&
    a.hasHp == b.hasHp && (!a.hasHp || a.hp == b.hp) &&
    a.hasTypes == b.hasTypes && (!a.hasTypes || a.types == b.types) &&
    a.stage0 == b.stage0 && a.stage1 == b.stage1 && a.stage2 == b.stage2 &&
    a.stage3 == b.stage3 && a.stage4 == b.stage4 && a.stage5 == b.stage5 &&
    a.stage6 == b.stage6 &&
    a.volatiles == b.volatiles && equalTimed a.timedVolatiles b.timedVolatiles &&
    a.turnsInBattle == b.turnsInBattle && a.toxicTurns == b.toxicTurns &&
    a.sleepTurns == b.sleepTurns && a.confusionTurns == b.confusionTurns &&
    a.isRestSleep == b.isRestSleep && a.lockedSlot == b.lockedSlot &&
    a.chargingMoveSlot == b.chargingMoveSlot && a.subHp == b.subHp &&
    a.lastUsedSlot == b.lastUsedSlot && a.fainted == b.fainted &&
    a.hasActed == b.hasActed && a.critStage == b.critStage &&
    a.metronomeCount == b.metronomeCount &&
    a.metronomeLastMove == b.metronomeLastMove &&
    a.mirrorMoveLastMove == b.mirrorMoveLastMove &&
    a.consumedBerry == b.consumedBerry &&
    a.tookDamageThisTurn == b.tookDamageThisTurn &&
    a.hadStatLoweredThisTurn == b.hadStatLoweredThisTurn &&
    a.hadStatRaisedThisTurn == b.hadStatRaisedThisTurn &&
    a.lastMoveFailed == b.lastMoveFailed &&
    a.lastPhysicalDamageTaken == b.lastPhysicalDamageTaken &&
    a.lastSpecialDamageTaken == b.lastSpecialDamageTaken &&
    a.lastDamageTaken == b.lastDamageTaken &&
    a.suckerPunchLastTurn == b.suckerPunchLastTurn &&
    a.baseAbility == b.baseAbility && a.savedAbility == b.savedAbility &&
    a.isMega == b.isMega && a.movesUsed == b.movesUsed &&
    a.rolloutHits == b.rolloutHits && a.defenseCurlUsed == b.defenseCurlUsed &&
    a.weightKgReduced == b.weightKgReduced &&
    a.protectCounter == b.protectCounter &&
    a.stockpileCount == b.stockpileCount &&
    a.stockpileDefBoost == b.stockpileDefBoost &&
    a.stockpileSpdBoost == b.stockpileSpdBoost

def equalSets {cap : Nat} (a b : InlineVec Int32 cap) : Option Bool :=
  if sortedSet a && sortedSet b then some (a == b) else none

def SideState.stateEqual (a b : SideState) : Option Bool :=
  if a.team.toList.length ≠ b.team.toList.length then some false
  else if !(a.team.toList.zip b.team.toList).all fun p => p.1.stateEqual p.2 then some false
  else if !(a.format == b.format && a.activeIndices == b.activeIndices &&
    equalSideConditions a.sideConditions b.sideConditions &&
    a.megaUsed == b.megaUsed &&
    a.hasBatonPassData == b.hasBatonPassData &&
    (!a.hasBatonPassData || equalBatonPass a.batonPassData b.batonPassData) &&
    a.allyFaintedLastTurn == b.allyFaintedLastTurn &&
    a.hasWishPending == b.hasWishPending &&
    (!a.hasWishPending ||
      (a.wishTurns == b.wishTurns && a.wishHp == b.wishHp && a.wishSlot == b.wishSlot)) &&
    a.hasFutureSightPending == b.hasFutureSightPending &&
    (!a.hasFutureSightPending ||
      (a.fsTurns == b.fsTurns && a.fsDamage == b.fsDamage &&
        a.fsMove == b.fsMove && a.fsTargetSlot == b.fsTargetSlot))) then some false
  else (equalSets a.imprisonedMoves b.imprisonedMoves).map fun sameMoves =>
    sameMoves && a.redirectTarget == b.redirectTarget &&
      a.redirectIsRagePowder == b.redirectIsRagePowder

def andAlso (x : Option Bool) (y : Unit → Option Bool) : Option Bool :=
  x.bind fun b => if b then y () else some false

def BattleState.stateEqualImpl (includeBookkeeping : Bool) (a b : BattleState) : Option Bool :=
  andAlso (a.side0.stateEqual b.side0) fun _ =>
  andAlso (a.side1.stateEqual b.side1) fun _ =>
  if !(a.weather == b.weather && a.weatherTurns == b.weatherTurns &&
    a.terrain == b.terrain && a.terrainTurns == b.terrainTurns &&
    equalPseudo a.pseudoWeather b.pseudoWeather &&
    a.echoedVoiceMultiplier == b.echoedVoiceMultiplier &&
    a.echoedVoiceUsedThisTurn == b.echoedVoiceUsedThisTurn &&
    a.battleLastMove == b.battleLastMove && a.format == b.format &&
    a.turnOrder == b.turnOrder &&
    a.isTrainerBattle == b.isTrainerBattle &&
    a.hasLevelCap == b.hasLevelCap &&
    (!a.hasLevelCap || a.levelCap == b.levelCap)) then some false
  else if !includeBookkeeping then some true
  else if a.turnNumber != b.turnNumber then some false
  else if a.prevTurnOrder != b.prevTurnOrder then some false
  else if a.expParticipants.toList.all (fun inner => sortedSet inner.members) &&
    b.expParticipants.toList.all (fun inner => sortedSet inner.members) then
    some (a.expParticipants == b.expParticipants)
  else none

def BattleState.stateEqual (a b : BattleState) : Option Bool := a.stateEqualImpl true b

/-- The solver's equality leaves out the turn number, the last order and the participants. -/
def BattleState.stateEqualSolver (a b : BattleState) : Option Bool := a.stateEqualImpl false b

end Engine

end NuzlockeSolver
