import NuzlockeSolver.Engine.Actions

/-!
# The damage estimates of the AI

Expected damage under the AI's fixed luck, the sixteen rolls of each damaging move, and the chance
of each move to be the one that does most.
-/

namespace NuzlockeSolver

namespace Engine

abbrev RollArray := Fin 16 → Int

section Luck

structure LuckProfile where
  critThreshold : ℚ := 50
  damageRoll : ℚ := 1 / 2
  procThreshold : ℚ := 50
  multiHitRoll : ℚ := 1 / 2

def averageLuck : LuckProfile := { damageRoll := 1 }

def maxLuck : LuckProfile :=
  { critThreshold := 100, damageRoll := 1, procThreshold := 101, multiHitRoll := 0 }

def contextLuck : LuckProfile := { critThreshold := 100, damageRoll := 1, procThreshold := 101 }

def critChances : List ℚ := [1 / 16, 1 / 8, 1 / 2, 100]

def getCritChance (attacker defender : PokemonState) (critBoost : Int) (magicRoom : Bool) : ℚ :=
  if defender.ability = abMagmaArmor then 0
  else if (defender.ability = abBattleArmor ∨ defender.ability = abShellArmor) ∧
    ¬ isMoldBreaker attacker.ability then 0
  else if hasTimedVolatile attacker veLaserFocus then 1
  else
    let stage := attacker.critStage.toInt
    let stage := if attacker.ability = abSuperLuck then stage + 1 else stage
    let stage :=
      if ¬ magicRoom ∧ (attacker.item = itemScopeLens ∨ attacker.item = itemRazorClaw) then
        stage + 1
      else stage
    let stage :=
      if ¬ magicRoom ∧ attacker.item = itemLeek ∧ leekSpecies.contains attacker.species then
        stage + 2
      else stage
    critChances.getD (min (stage + critBoost) 3).toNat 0

def resolveCrit (critChance critThreshold : ℚ) : Bool :=
  if critChance ≤ 0 then false
  else if critChance = 1 ∧ critThreshold ≤ 100 then true
  else decide (critThreshold ≤ critChance)

def alwaysCrits (attacker defender : PokemonState) : Bool :=
  attacker.ability == abMerciless &&
    (defender.status == statusPoison || defender.status == statusToxic) &&
    defender.ability != abBattleArmor && defender.ability != abShellArmor &&
    defender.ability != abMagmaArmor

def isCritHit (c : DamageCall) (md : MoveData) (luck : LuckProfile) : Bool :=
  let magicRoom := hasPseudoWeather c.state pwMagicRoom
  resolveCrit (getCritChance c.attacker c.defender md.critBoost.toInt magicRoom)
    luck.critThreshold || alwaysCrits c.attacker c.defender

def hitDamage (c : DamageCall) (md : MoveData) (luck : LuckProfile) (rollIndex : Option Nat) : Int :=
  rollDamage { c with procThreshold := luck.procThreshold } md (isCritHit c md luck)
    (rollIndex.getD (truncate (luck.damageRoll * 15)).toNat)

end Luck

section Expected

structure MonRef where
  side : Int
  idx : Int32

def monAt (state : BattleState) (ref : MonRef) : PokemonState := (state.side ref.side).mon ref.idx

def activeRef (state : BattleState) (side : Int) : MonRef := ⟨side, activeIdx state side 0⟩

def resolveMultiHit (minHits maxHits : Int) (luck : LuckProfile) : Int :=
  let roll := luck.multiHitRoll
  if minHits = maxHits then minHits
  else if minHits = 2 ∧ maxHits = 5 then
    if roll < 35 / 100 then 2 else if roll < 70 / 100 then 3 else if roll < 85 / 100 then 4 else 5
  else ⌊minHits + roll * (maxHits - minHits) + 1 / 2⌋

def parentalBondActive (attacker : PokemonState) (md : MoveData) : Bool :=
  attacker.ability == abParentalBond && md.maxHits == 1 &&
    (md.target == targetNormal || md.target == targetAny || md.target == targetRandomNormal)

def expectedHitCount (attacker : PokemonState) (md : MoveData) (luck : LuckProfile) : Int :=
  let hitCount := resolveMultiHit md.minHits.toInt md.maxHits.toInt luck
  let hitCount :=
    if attacker.ability = abSkillLink ∧ md.maxHits > 1 then md.maxHits.toInt else hitCount
  let hitCount :=
    if attacker.ability = abBattleBond ∧ attacker.species = speciesGreninjaAsh ∧
      md.moveId = moveWaterShuriken then 3
    else hitCount
  if parentalBondActive attacker md then 2 else hitCount

def orderBpOverride (state : BattleState) (atkSide : Int) (moveId : Int32) : Int :=
  let order := state.prevTurnOrder.toList
  if moveId = movePayback ∧ order.length ≥ 2 ∧ (order.getD 1 0).toInt = atkSide then 100
  else if (moveId = moveBoltBeak ∨ moveId = moveFishiousRend) ∧ order.length ≥ 2 ∧
    (order.getD 0 0).toInt = atkSide then 170
  else 0

def hitBpOverride (state : BattleState) (atkSide : Int) (moveId : Int32) (rolloutMaxBp : Bool)
    (hitNum : Nat) : Int :=
  if moveId = moveTripleAxel then [20, 40, 60].getD hitNum 60
  else if rolloutMaxBp ∧ moveId = moveRollout then 480
  else orderBpOverride state atkSide moveId

structure EstimateOptions where
  luck : LuckProfile
  rollIndex : Option Nat := none
  rolloutMaxBp : Bool := false
  hitCountOverride : Option Int := none

def expectedDamage (state : BattleState) (atk : MonRef) (md : MoveData) (defn : MonRef)
    (opts : EstimateOptions) : Int :=
  let attacker := monAt state atk
  let hitCount := opts.hitCountOverride.getD (expectedHitCount attacker md opts.luck)
  let bond := opts.hitCountOverride.isNone && parentalBondActive attacker md
  ((List.range hitCount.toNat).map fun hitNum =>
    let dmg := hitDamage
      { attacker := attacker
        moveId := md.moveId
        defender := monAt state defn
        state := state
        bpOverride := hitBpOverride state atk.side md.moveId opts.rolloutMaxBp hitNum
        defSideIdx := defn.side
        spreadHit := true
        aiScoringView := true
        attackerIdx := some atk.idx
        defenderIdx := some defn.idx } md opts.luck opts.rollIndex
    if bond ∧ hitNum = 1 then max 1 (truncate (dmg * (1 / 4))) else dmg).sum

def canKo (state : BattleState) (atk : MonRef) (md : MoveData) (defn : MonRef)
    (opts : EstimateOptions) : Bool :=
  if (monAt state defn).hp ≤ 0 then true
  else decide ((monAt state defn).hp.toInt ≤ expectedDamage state atk md defn opts)

/-- The move of most expected damage, the first of equals; `moveNone` when none does any. -/
def bestDamageMove (moves : List MoveData) (state : BattleState) (atk defn : MonRef)
    (opts : EstimateOptions) : Except String Int32 := do
  let best ← ([0, 1, 2, 3] : List Int).foldlM (fun best slot => do
    let moveId := moveIdAt (monAt state atk) slot
    if moveId = moveNone then pure best
    else
      let md ← lookupMove moves moveId
      let dmg := expectedDamage state atk md defn opts
      pure (if best.2 < dmg then (moveId, dmg) else best)) (moveNone, (0 : Int))
  pure best.1

end Expected

section Speed

def weatherSpeedBoost (mon : PokemonState) (state : BattleState) : Bool :=
  let weather := effectiveWeather state
  if mon.ability = abSwiftSwim ∧ weather = weatherRainy then true
  else if mon.ability = abChlorophyll ∧ (weather = weatherSunny ∨ weather = weatherHarshSun) then
    true
  else if mon.ability = abSandRush ∧ weather = weatherSandstorm then true
  else if mon.ability = abSlushRush ∧ weather = weatherHail then true
  else decide (mon.ability = abSurgeSurfer ∧ state.terrain = terrainElectric)

def effectiveSpeed (mon : PokemonState) (side : SideState) (state : BattleState) : Int :=
  let spe := effectiveStat mon 5 false
  let spe :=
    if mon.ability = abQuickFeet ∧ mon.status ≠ statusNone then truncate (spe * (3 / 2))
    else if mon.status = statusParalysis then max 1 (spe.tdiv 4)
    else spe
  let spe := if hasSideCondition side scTailwind then spe * 2 else spe
  let spe := if weatherSpeedBoost mon state then spe * 2 else spe
  let spe := if mon.ability = abSlowStart ∧ mon.turnsInBattle < 5 then spe.tdiv 2 else spe
  let spe := if hasVolatile mon volatileUnburden ∧ mon.item = itemNone then spe * 2 else spe
  if mon.item = itemLaggingTail then -9999
  else
    let spe :=
      if mon.item = itemChoiceScarf then truncate (spe * (3 / 2))
      else if mon.item = itemIronBall then max 1 (spe.tdiv 2)
      else spe
    max 1 spe

def aiFaster (state : BattleState) (aiIdx : Int) : Bool :=
  let speed (sideIdx : Int) :=
    effectiveSpeed (activeMon state sideIdx) (state.side sideIdx) state
  decide (speed (1 - aiIdx) ≤ speed aiIdx)

end Speed

section Context

def isTrapping (moveId : Int32) : Bool := trappingMoves.contains moveId

def isExcludedFromDamageRank (moveId : Int32) : Bool :=
  [moveExplosion, moveSelfDestruct, moveMistyExplosion, moveFinalGambit, moveRollout,
    moveMeteorBeam, moveRelicSong, moveFutureSight].contains moveId || isTrapping moveId

def isFixedDamageRankMove (moveId : Int32) : Bool :=
  [moveSonicBoom, moveDragonRage, moveSeismicToss, moveNightShade, moveSuperFang,
    moveNatureSMadness, movePsywave].contains moveId

def isTypeImmune (md : MoveData) (defender : PokemonState) : Bool :=
  defender.types.toList.any fun t =>
    decide (typeEff md.moveType t = 0) && defender.item != itemRingTarget

def bankerRound (x : ℚ) : Int :=
  let fl := ⌊x⌋
  let diff := x - fl
  if diff < 1 / 2 then fl else if diff > 1 / 2 then fl + 1 else if fl % 2 = 0 then fl else fl + 1

def superFangDamage (defender : PokemonState) : Int := max 1 (defender.hp.toInt.tdiv 2)

def psywaveDamage (level : Int) (roll : Nat) : Int :=
  max 1 (((50 + bankerRound (roll / 15 * 100)) * level).tdiv 100)

def fixedDamageRolls (moveId : Int32) (md : MoveData) (aiMon plMon : PokemonState) :
    Option RollArray :=
  if ¬ isFixedDamageRankMove moveId then none
  else if isTypeImmune md plMon then some fun _ => 0
  else if moveId = moveDragonRage then some fun _ => 40
  else if moveId = moveSonicBoom then some fun _ => 20
  else if moveId = moveSeismicToss ∨ moveId = moveNightShade then some fun _ => aiMon.level.toInt
  else if moveId = moveSuperFang ∨ moveId = moveNatureSMadness then
    some fun _ => superFangDamage plMon
  else some fun i => psywaveDamage aiMon.level.toInt i

def assumedHitCount (attacker : PokemonState) (md : MoveData) : Int :=
  if md.maxHits ≤ 1 then 1
  else if md.minHits = md.maxHits then md.maxHits.toInt
  else if attacker.ability = abSkillLink then 5
  else 3

/-- The rolls of a single hit, twice as much on a poisoned mon for Venoshock, times the hits. -/
def rankedRolls (state : BattleState) (aiIdx : Int) (md : MoveData) : RollArray := fun i =>
  let plMon := activeMon state (1 - aiIdx)
  let roll := expectedDamage state (activeRef state aiIdx) md (activeRef state (1 - aiIdx))
    { luck := contextLuck, rollIndex := some i, hitCountOverride := some 1 }
  let roll :=
    if md.moveId = moveVenoshock ∧ (plMon.status = statusPoison ∨ plMon.status = statusToxic) then
      roll * 2
    else roll
  let hits := assumedHitCount (activeMon state aiIdx) md
  if hits > 1 then roll * hits else roll

structure DamageEntry where
  slot : Int
  rolls : RollArray
  assumedHits : Int

def damageEntry (moves : List MoveData) (state : BattleState) (aiIdx : Int) (action : ExecAction) :
    Option DamageEntry :=
  let aiMon := activeMon state aiIdx
  if action.kind ≠ actionMove ∨ action.moveSlot < 0 then none
  else
    let moveId := moveIdAt aiMon action.moveSlot
    if moveId = moveNone then none
    else
      match moveDataGet moves moveId with
      | none => none
      | some md =>
        if isFixedDamageRankMove moveId then
          (fixedDamageRolls moveId md aiMon (activeMon state (1 - aiIdx))).map
            fun rolls => ⟨action.moveSlot, rolls, 1⟩
        else if md.tags &&& tagDamage = 0 ∨ isExcludedFromDamageRank moveId then none
        else if moveId = moveBelch ∧ aiMon.consumedBerry = itemNone then none
        else some ⟨action.moveSlot, rankedRolls state aiIdx md, assumedHitCount aiMon md⟩

/-- The entries of the damaging moves, in the order of the actions. -/
def buildDamageContext (moves : List MoveData) (state : BattleState) (aiIdx : Int)
    (actions : List ExecAction) : List DamageEntry :=
  actions.filterMap (damageEntry moves state aiIdx)

end Context

end Engine

end NuzlockeSolver
