import NuzlockeSolver.Engine.Lookup

/-!
# The damage formula

`cpp_calculate_damage` over exact integers and rationals, with the critical hit and the roll given
by the caller. Integer divisions truncate; a multiplication by a factor is floored.
-/

namespace NuzlockeSolver

namespace Engine

/-- The columns of the move table that the formula reads. -/
structure MoveData where
  moveId : Int32
  moveType : Int32
  category : Int32
  basePower : UInt8
  target : Int32 := 0
  tags : Int32 := 0
  minHits : Int8 := 1
  maxHits : Int8 := 1
  recoilNum : Int8 := -1
  secondaryChance : Int8 := 0
  priority : Int8 := 0
  critBoost : Int8 := 0
  drainNum : Int8 := -1

/-- The arguments of a damage calculation. A mon passed by reference out of the state has its team
index in `attackerIdx` or `defenderIdx`. -/
structure DamageCall where
  attacker : PokemonState
  moveId : Int32
  defender : PokemonState
  state : BattleState
  procThreshold : ℚ := 50
  bpOverride : Int := 0
  defSideIdx : Int := -1
  spreadHit : Bool := false
  aiScoringView : Bool := false
  attackerIdx : Option Int32 := none
  defenderIdx : Option Int32 := none

def scaleIf (c : Prop) [Decidable c] (m : ℚ) (x : Int) : Int := if c then ⌊x * m⌋ else x

def halveIf (c : Prop) [Decidable c] (x : Int) : Int := if c then x.tdiv 2 else x

def lookupMove (moves : List MoveData) (moveId : Int32) : Except String MoveData :=
  match moves.find? (·.moveId = moveId) with
  | some md => .ok md
  | none => .error ("lookup_move: id " ++ toString moveId ++ " not found")

section Types

def typeEff (atkType defType : Int32) : ℚ :=
  if atkType < 0 ∨ atkType > 18 ∨ defType < 0 ∨ defType > 18 then 1
  else (((typeChart.getD atkType.toInt.toNat []).getD defType.toInt.toNat 2 : Nat) : ℚ) / 2

def typeFactor (c : DamageCall) (moveType defType : Int32) : ℚ :=
  let factor := typeEff moveType defType
  if factor = 0 ∧ defType = typeGhost ∧ (moveType = typeNormal ∨ moveType = typeFighting) ∧
    (c.attacker.ability = abScrappy ∨ c.defender.volatiles &&& volatileIdentified ≠ 0) then 1
  else factor

def chartEffectiveness (c : DamageCall) (moveType : Int32) : ℚ :=
  let types := c.defender.types.toList
  let effectiveness := (types.map (typeFactor c moveType)).prod
  let effectiveness :=
    if c.moveId = moveFlyingPress then effectiveness * (types.map (typeEff typeFlying)).prod
    else effectiveness
  if c.moveId = moveFreezeDry ∧ hasType c.defender typeWater then effectiveness * 4
  else effectiveness

def groundedEffectiveness (c : DamageCall) (moveType : Int32) (effectiveness : ℚ) : ℚ :=
  let effectiveness :=
    if effectiveness = 0 ∧ moveType = typeGround ∧ hasPseudoWeather c.state pwGravity then 1
    else effectiveness
  if c.moveId = moveThousandArrows ∧ effectiveness = 0 then 1 else effectiveness

def ringTargetEffectiveness (c : DamageCall) (moveType : Int32) : ℚ :=
  (c.defender.types.toList.map fun defType =>
    let primary := typeEff moveType defType
    let flying := if c.moveId = moveFlyingPress then typeEff typeFlying defType else 1
    (if primary = 0 then 1 else primary) * (if flying = 0 then 1 else flying)).prod

def typeEffectivenessProduct (c : DamageCall) (moveType : Int32) : ℚ :=
  let effectiveness := groundedEffectiveness c moveType (chartEffectiveness c moveType)
  if c.defender.item = itemRingTarget ∧ effectiveness = 0 then ringTargetEffectiveness c moveType
  else effectiveness

def hiddenPowerType (mon : PokemonState) : Int32 :=
  let bit (iv shift : Int32) : Int32 := (iv % 2) <<< shift
  let bits := bit mon.ivHp 0 ||| bit mon.ivAtk 1 ||| bit mon.ivDef 2 ||| bit mon.ivSpe 3 |||
    bit mon.ivSpa 4 ||| bit mon.ivSpd 5
  hpTypeTable.getD ((bits * 15) / 63).toInt.toNat 0

def ateType (ability : Int32) : Option Int32 :=
  if ability = abPixilate then some typeFairy
  else if ability = abRefrigerate then some typeIce
  else if ability = abAerilate then some typeFlying
  else if ability = abGalvanize then some typeElectric
  else none

def weatherBallType (weather moveType : Int32) : Int32 :=
  if weather = weatherSunny ∨ weather = weatherHarshSun then typeFire
  else if weather = weatherRainy ∨ weather = weatherHeavyRain then typeWater
  else if weather = weatherSandstorm then typeRock
  else if weather = weatherHail then typeIce
  else moveType

def terrainPulseType (terrain moveType : Int32) : Int32 :=
  if terrain = terrainElectric then typeElectric
  else if terrain = terrainGrassy then typeGrass
  else if terrain = terrainPsychic then typePsychic
  else if terrain = terrainMisty then typeFairy
  else moveType

def normalizedTypeAndBp (c : DamageCall) (moveType : Int32) (baseBp : Int) : Int32 × Int :=
  if c.attacker.ability = abNormalize then
    (typeNormal,
      scaleIf (¬ (c.moveId = moveWeatherBall ∨ c.moveId = moveRevelationDance)) (6 / 5) baseBp)
  else
    match ateType c.attacker.ability with
    | some t =>
      if moveType = typeNormal then (t, scaleIf True (6 / 5) baseBp) else (moveType, baseBp)
    | none => (moveType, baseBp)

def weatherBallTypeAndBp (c : DamageCall) (moveType : Int32) (bp : Int) : Int32 × Int :=
  let wbWeather := effectiveWeather c.state
  if c.moveId = moveWeatherBall ∧ wbWeather ≠ weatherNone ∧ wbWeather ≠ weatherStrongWind then
    (weatherBallType wbWeather moveType, bp * 2)
  else (moveType, bp)

def terrainPulseTypeAndBp (c : DamageCall) (moveType : Int32) (bp : Int) : Int32 × Int :=
  if c.moveId = moveTerrainPulse ∧ c.state.terrain ≠ terrainNone ∧
      isGrounded c.attacker c.state then
    (terrainPulseType c.state.terrain moveType, bp * 2)
  else (moveType, bp)

def baseBp (c : DamageCall) (md : MoveData) : Int :=
  if c.bpOverride ≠ 0 then c.bpOverride else md.basePower.toNat

def resolveMoveTypeAndBp (c : DamageCall) (md : MoveData) : Int32 × Int :=
  let moveType := if c.moveId = moveHiddenPower then hiddenPowerType c.attacker else md.moveType
  let moveType :=
    if c.attacker.ability = abLiquidVoice ∧ md.tags &&& tagSound ≠ 0 then typeWater else moveType
  let normalized := normalizedTypeAndBp c moveType (baseBp c md)
  if c.moveId = moveNaturalGift then
    match naturalGiftTable.lookup c.attacker.item with
    | some gift => gift
    | none => (normalized.1, 0)
  else
    let ball := weatherBallTypeAndBp c normalized.1 normalized.2
    let firstType := c.attacker.types.toList.headD
    let moveType := if c.moveId = moveRevelationDance then firstType ball.1 else ball.1
    let pulse := terrainPulseTypeAndBp c moveType ball.2
    let moveType :=
      if c.moveId = moveAuraWheel then
        if c.attacker.species = speciesMorpekoHangry then typeDark else typeElectric
      else pulse.1
    let moveType := if c.moveId = moveMultiAttack then firstType moveType else moveType
    (moveType, scaleIf
      (c.attacker.ability = abTechnician ∧ md.basePower > 0 ∧ md.basePower ≤ 60) (3 / 2) pulse.2)

end Types

section Power

def semiInvulnDoubleDmg (chargingMoveId attackingMoveId : Int32) : Bool :=
  ((attackingMoveId == 16 || attackingMoveId == 239) && [19, 340, 507].contains chargingMoveId) ||
    ((attackingMoveId == moveEarthquake || attackingMoveId == moveMagnitude) &&
      chargingMoveId == 91) ||
    ((attackingMoveId == 57 || attackingMoveId == 250) && chargingMoveId == 291)

def chargingMoveId (defender : PokemonState) : Int32 :=
  match defender.timedVolatiles.toList.find? (·.effect = veChargingMove) with
  | some tv => tv.turns
  | none =>
    if defender.chargingMoveSlot = 0 then defender.moveId0
    else if defender.chargingMoveSlot = 1 then defender.moveId1
    else if defender.chargingMoveSlot = 2 then defender.moveId2
    else if defender.chargingMoveSlot = 3 then defender.moveId3
    else 0

def hasAllyWith (c : DamageCall) (ability : Int32) : Bool :=
  let atkSide := c.state.side (1 - c.defSideIdx)
  decide (0 ≤ c.defSideIdx) && atkSide.activeIndices.toList.any fun idx =>
    c.attackerIdx != some idx && (atkSide.mon idx).ability == ability

def terrainBp (c : DamageCall) (moveType : Int32) (bp : Int) : Int :=
  let terrain := c.state.terrain
  if terrain = terrainMisty ∧ moveType = typeDragon then
    halveIf (isGrounded c.defender c.state) bp
  else if terrain = terrainGrassy ∧
    (c.moveId = moveEarthquake ∨ c.moveId = moveBulldoze ∨ c.moveId = moveMagnitude) then
    bp.tdiv 2
  else if isGrounded c.attacker c.state then
    scaleIf (terrain = terrainElectric ∧ moveType = typeElectric ∨
      terrain = terrainGrassy ∧ moveType = typeGrass ∨
      terrain = terrainPsychic ∧ moveType = typePsychic ∨
      terrain = terrainMisty ∧ c.moveId = moveMistyExplosion) (3 / 2) bp
  else bp

def computeBp (c : DamageCall) (md : MoveData) (moveType : Int32) (isPhysical : Bool) (bp : Int) :
    Int :=
  let attacker := c.attacker
  let breaksMold := isMoldBreaker attacker.ability
  let magicRoom := hasPseudoWeather c.state pwMagicRoom
  let bp :=
    if moveType = typeFire ∧ attacker.volatiles &&& volatileFlashFire ≠ 0 then
      truncate (bp * (3 / 2))
    else bp
  let bp := scaleIf (attacker.volatiles &&& volatileHelpingHand ≠ 0) (3 / 2) bp
  let bp := scaleIf (hasAllyWith c abPowerSpot) (13 / 10) bp
  let bp := scaleIf (!isPhysical && hasAllyWith c abBattery) (5325 / 4096) bp
  let bp := terrainBp c moveType bp
  let bp := scaleIf (attacker.ability = abStrongJaw ∧ md.tags &&& tagBiting ≠ 0) (3 / 2) bp
  let bp := scaleIf (attacker.ability = abMegaLauncher ∧ md.tags &&& tagPulse ≠ 0) (3 / 2) bp
  let bp := scaleIf (attacker.ability = abPunkRock ∧ md.tags &&& tagSound ≠ 0) (13 / 10) bp
  let bp := scaleIf (attacker.ability = abSheerForce ∧ md.secondaryChance ≠ 0) (13 / 10) bp
  let bp := scaleIf (attacker.ability = abIronFist ∧ md.tags &&& tagPunching ≠ 0) (6 / 5) bp
  let bp := scaleIf (attacker.ability = abSharpness ∧ md.tags &&& tagSlicing ≠ 0) (3 / 2) bp
  let bp := scaleIf (attacker.ability = abToughClaws ∧ md.tags &&& tagContact ≠ 0) (13 / 10) bp
  let bp := scaleIf (attacker.ability = abReckless ∧
    (md.recoilNum ≥ 0 ∨ recklessMoves.contains c.moveId)) (6 / 5) bp
  let bp := scaleIf (attacker.ability = abSandForce ∧
    effectiveWeather c.state = weatherSandstorm ∧
    (moveType = typeRock ∨ moveType = typeGround ∨ moveType = typeSteel)) (13 / 10) bp
  let bp := scaleIf (moveType = typeWater ∧ attacker.ability = abWaterBubble) 2 bp
  let bp := scaleIf (attacker.ability = abSteelySpirit ∧ moveType = typeSteel) (3 / 2) bp
  let bp := scaleIf (attacker.ability = abSteelworker ∧ moveType = typeSteel) (3 / 2) bp
  let bp := scaleIf (attacker.ability = abTransistor ∧ moveType = typeElectric) (3 / 2) bp
  let bp := scaleIf (attacker.ability = abDragonSMaw ∧ moveType = typeDragon) (3 / 2) bp
  let bp := halveIf (c.defender.ability = abThickFat ∧ (moveType = typeFire ∨ moveType = typeIce) ∧
    ¬ breaksMold ∧ ¬ ignoreAbilityMoves.contains c.moveId) bp
  let bp := scaleIf (attacker.item = itemWiseGlasses ∧ ¬ isPhysical ∧ ¬ magicRoom) (11 / 10) bp
  let bp := scaleIf (attacker.item = itemMuscleBand ∧ isPhysical ∧ ¬ magicRoom) (11 / 10) bp
  let bp := scaleIf (¬ magicRoom ∧
    (typeBoostMap.take tbCount).lookup attacker.item = some moveType) (6 / 5) bp
  let bp := scaleIf (¬ magicRoom ∧
    (attacker.item = itemGriseousOrb ∨ attacker.item = itemGriseousCore) ∧
    (attacker.species = speciesGiratina ∨ attacker.species = speciesGiratinaOrigin) ∧
    (moveType = typeGhost ∨ moveType = typeDragon)) (6 / 5) bp
  scaleIf (¬ magicRoom ∧ gemMap.lookup attacker.item = some moveType) (3 / 2) bp

end Power

section Stats

def baseAttackStat (c : DamageCall) (isPhysical isCrit : Bool) : Int :=
  let breaksMold := isMoldBreaker c.attacker.ability
  let stage := if isPhysical then c.attacker.stage0.toInt else c.attacker.stage2.toInt
  let stage := if c.defender.ability = abUnaware ∧ ¬ breaksMold then 0 else stage
  let stage := if isCrit ∧ stage < 0 then 0 else stage
  let base := if isPhysical then c.attacker.statAtk.toInt else c.attacker.statSpa.toInt
  let atk := stagedStat base stage
  let atk := if c.moveId = moveBodyPress then effectiveStat c.attacker 2 isCrit else atk
  if c.moveId = moveFoulPlay then effectiveStat c.defender 1 isCrit else atk

def inSun (state : BattleState) : Bool :=
  effectiveWeather state == weatherSunny || effectiveWeather state == weatherHarshSun

def maxHpOf (mon : PokemonState) : Int := if mon.hasMaxHp then mon.maxHp.toInt else mon.statHp.toInt

def curHpOf (mon : PokemonState) : Int := if mon.hasHp then mon.hp.toInt else maxHpOf mon

def attackModifiers (c : DamageCall) (isPhysical : Bool) (atk : Int) : Int :=
  let attacker := c.attacker
  let magicRoom := hasPseudoWeather c.state pwMagicRoom
  let atk := halveIf (isPhysical ∧ attacker.ability = abSlowStart ∧ attacker.turnsInBattle < 5) atk
  let atk := scaleIf (isPhysical ∧
    (attacker.ability = abHugePower ∨ attacker.ability = abPurePower)) 2 atk
  let atk := scaleIf (isPhysical ∧ attacker.ability = abHustle) (3 / 2) atk
  let atk := scaleIf (isPhysical ∧ attacker.ability = abGuts ∧ attacker.status ≠ statusNone)
    (3 / 2) atk
  let atk := scaleIf (isPhysical ∧ attacker.ability = abToxicBoost ∧
    (attacker.status = statusPoison ∨ attacker.status = statusToxic)) (3 / 2) atk
  let atk := scaleIf (isPhysical ∧ attacker.ability = abGorillaTactics) (3 / 2) atk
  let atk := scaleIf (¬ isPhysical ∧ attacker.ability = abSolarPower ∧ inSun c.state) (3 / 2) atk
  let atk := scaleIf (isPhysical ∧ attacker.ability = abFlowerGift ∧ inSun c.state) (3 / 2) atk
  let atk := scaleIf (¬ isPhysical ∧
    (attacker.ability = abPlus ∧ hasAllyWith c abMinus ∨
      attacker.ability = abMinus ∧ hasAllyWith c abPlus)) (3 / 2) atk
  let atk := halveIf (attacker.ability = abDefeatist ∧
    curHpOf attacker ≤ (maxHpOf attacker).tdiv 2) atk
  let atk := scaleIf (¬ magicRoom ∧ attacker.item = itemLightBall ∧
    pikachuSpecies.contains attacker.species) 2 atk
  let atk := scaleIf (¬ magicRoom ∧ isPhysical ∧ attacker.item = itemThickClub ∧
    thickClubSpecies.contains attacker.species) 2 atk
  let atk := scaleIf (¬ magicRoom ∧ attacker.item = itemChoiceBand ∧ isPhysical) (3 / 2) atk
  scaleIf (¬ magicRoom ∧ attacker.item = itemChoiceSpecs ∧ ¬ isPhysical) (3 / 2) atk

def computeAttackStat (c : DamageCall) (isPhysical isCrit : Bool) : Int :=
  attackModifiers c isPhysical (baseAttackStat c isPhysical isCrit)

def baseDefenseStat (c : DamageCall) (isPhysical isCrit : Bool) : Int :=
  let stage := if isPhysical then c.defender.stage1.toInt else c.defender.stage3.toInt
  let stage := if c.attacker.ability = abUnaware then 0 else stage
  let stage := if ignoreDefBoostMoves.contains c.moveId then min stage 0 else stage
  let stage := if isCrit ∧ stage > 0 then 0 else stage
  let base := if isPhysical then c.defender.statDef.toInt else c.defender.statSpd.toInt
  let defVal := stagedStat base stage
  let defVal :=
    if hasPseudoWeather c.state pwWonderRoom then
      if isPhysical then effectiveStat c.defender 4 isCrit else effectiveStat c.defender 2 isCrit
    else defVal
  if c.moveId = movePsyshock ∨ c.moveId = movePsystrike ∨ c.moveId = moveSecretSword then
    effectiveStat c.defender 2 isCrit
  else defVal

def defenseModifiers (c : DamageCall) (isPhysical : Bool) (defVal : Int) : Int :=
  let defender := c.defender
  let breaksMold := isMoldBreaker c.attacker.ability
  let magicRoom := hasPseudoWeather c.state pwMagicRoom
  let defVal := scaleIf (¬ isPhysical ∧ effectiveWeather c.state = weatherSandstorm ∧
    hasType defender typeRock) (3 / 2) defVal
  let defVal := scaleIf (¬ isPhysical ∧ defender.ability = abFlowerGift ∧ inSun c.state) (3 / 2)
    defVal
  let defVal := scaleIf (¬ magicRoom ∧ defender.item = itemEviolite ∧
    unevolvedSpecies.contains defender.species) (3 / 2) defVal
  let defVal := scaleIf (¬ isPhysical ∧ ¬ magicRoom ∧ defender.item = itemAssaultVest) (3 / 2)
    defVal
  let defVal := scaleIf (isPhysical ∧ defender.ability = abFurCoat ∧ ¬ breaksMold) 2 defVal
  let defVal := scaleIf (isPhysical ∧ defender.ability = abMarvelScale ∧
    defender.status ≠ statusNone ∧ ¬ breaksMold) (3 / 2) defVal
  let defVal := scaleIf (isPhysical ∧ defender.ability = abGrassPelt ∧
    c.state.terrain = terrainGrassy ∧ ¬ breaksMold) (3 / 2) defVal
  if explosionMoveIds.contains c.moveId then max 1 (defVal.tdiv 2) else defVal

def computeDefenseStat (c : DamageCall) (isPhysical isCrit : Bool) : Int :=
  defenseModifiers c isPhysical (baseDefenseStat c isPhysical isCrit)

end Stats

section Roll

structure PostRollCtx where
  effectiveness : ℚ
  moveType : Int32
  moveId : Int32
  pinchActive : Bool
  breaksMold : Bool
  isPhysical : Bool
  isCrit : Bool
  magicRoom : Bool
  aiScoringView : Bool
  defSideIdx : Int
  mdTags : Int32
  attacker : PokemonState
  defender : PokemonState
  defenderIdx : Option Int32
  state : BattleState

def applyWeather (damage : Int) (moveType : Int32) (state : BattleState) : Int :=
  let weather := state.weather
  if effectiveWeather state = weatherNone then damage
  else if weather = weatherRainy ∨ weather = weatherHeavyRain then
    if moveType = typeWater then ⌊damage * (3 / 2 : ℚ)⌋
    else scaleIf (moveType = typeFire) (1 / 2) damage
  else if weather = weatherSunny ∨ weather = weatherHarshSun then
    if moveType = typeFire then ⌊damage * (3 / 2 : ℚ)⌋
    else scaleIf (moveType = typeWater) (1 / 2) damage
  else damage

def cappedEffectiveness (x : PostRollCtx) : ℚ :=
  if x.state.weather = weatherStrongWind ∧ hasType x.defender typeFlying ∧
      x.effectiveness > 1 then 1
  else x.effectiveness

def ignoresAbility (x : PostRollCtx) : Bool := ignoreAbilityMoves.contains x.moveId

def atFullHp (mon : PokemonState) : Bool := curHpOf mon == maxHpOf mon

def auraFactor (x : PostRollCtx) : ℚ :=
  if (activeMons x.state).any (·.ability == abAuraBreak) ∧ ¬ x.breaksMold then 3 / 4 else 4 / 3

def fluffyFactor (x : PostRollCtx) : ℚ :=
  let isContact : Bool := x.mdTags &&& tagContact ≠ 0
  let contactSuppressed :=
    x.attacker.ability == abLongReach || x.attacker.item == itemProtectivePads
  (if x.moveType = typeFire then 2 else 1) / (if isContact ∧ ¬ contactSuppressed then 2 else 1)

def applyTypeModifiers (x : PostRollCtx) (damage : Int) : Int :=
  let effectiveness := cappedEffectiveness x
  let damage := scaleIf (x.moveType ≠ typeTypeless ∧ hasType x.attacker x.moveType)
    (if x.attacker.ability = abAdaptability then 2 else 3 / 2) damage
  let damage := scaleIf x.pinchActive (3 / 2) damage
  let damage := ⌊damage * effectiveness⌋
  let damage := scaleIf (x.attacker.ability = abTintedLens ∧ effectiveness < 1) 2 damage
  let damage := scaleIf (x.attacker.ability = abNeuroforce ∧ effectiveness > 1) (5 / 4) damage
  let damage := scaleIf (effectiveness > 1 ∧ ¬ ignoresAbility x ∧
    ((x.defender.ability = abFilter ∨ x.defender.ability = abSolidRock) ∧ ¬ x.breaksMold ∨
      x.defender.ability = abPrismArmor)) (3 / 4) damage
  let damage := scaleIf (x.moveType = typeDark ∧ (activeMons x.state).any (·.ability == abDarkAura))
    (auraFactor x) damage
  scaleIf (x.moveType = typeFairy ∧ (activeMons x.state).any (·.ability == abFairyAura))
    (auraFactor x) damage

def applyHolderModifiers (x : PostRollCtx) (damage : Int) : Int :=
  let effectiveness := cappedEffectiveness x
  let defender := x.defender
  let damage := scaleIf (defender.ability = abPunkRock ∧ x.mdTags &&& tagSound ≠ 0 ∧
    ¬ x.breaksMold) (1 / 2) damage
  let damage := scaleIf (defender.ability = abHeatproof ∧ x.moveType = typeFire ∧ ¬ x.breaksMold)
    (1 / 2) damage
  let damage := scaleIf (defender.ability = abWaterBubble ∧ x.moveType = typeFire ∧ ¬ x.breaksMold)
    (1 / 2) damage
  let damage := scaleIf (defender.ability = abDrySkin ∧ x.moveType = typeFire ∧ ¬ x.breaksMold)
    (5 / 4) damage
  let damage := scaleIf (x.attacker.item = itemLifeOrb ∧ ¬ x.magicRoom) (13 / 10) damage
  let damage :=
    if x.attacker.item = itemExpertBelt ∧ effectiveness > 1 ∧ ¬ x.magicRoom then
      ⌊damage * (4915 / 4096 : ℚ) + 1 / 2⌋
    else damage
  let damage := scaleIf (defender.ability = abMultiscale ∧ ¬ x.breaksMold ∧ ¬ ignoresAbility x ∧
    atFullHp defender) (1 / 2) damage
  let damage := scaleIf (defender.ability = abShadowShield ∧ ¬ ignoresAbility x ∧
    atFullHp defender) (1 / 2) damage
  let damage := scaleIf (¬ x.isPhysical ∧ defender.ability = abIceScales ∧ ¬ x.breaksMold ∧
    ¬ ignoresAbility x) (1 / 2) damage
  let damage := scaleIf (defender.ability = abFluffy ∧ ¬ ignoresAbility x ∧ ¬ x.breaksMold)
    (fluffyFactor x) damage
  scaleIf (x.isPhysical ∧ x.attacker.status = statusBurn ∧ x.attacker.ability ≠ abGuts ∧
    x.moveId ≠ moveFacade) (1 / 2) damage

def behindScreen (x : PostRollCtx) : Bool :=
  let defSide := x.state.side x.defSideIdx
  !x.isCrit && x.attacker.ability != abInfiltrator &&
    (hasSideCondition defSide scAuroraVeil ||
      (x.isPhysical && hasSideCondition defSide scReflect) ||
      (!x.isPhysical && hasSideCondition defSide scLightScreen))

def actedLast (x : PostRollCtx) : Bool :=
  let order := (if x.aiScoringView then x.state.prevTurnOrder else x.state.turnOrder).toList
  decide (order.length ≥ 2) && order.getLast?.any fun side => side.toInt == 1 - x.defSideIdx

def hasFriendGuard (x : PostRollCtx) : Bool :=
  let defSide := x.state.side x.defSideIdx
  defSide.activeIndices.toList.any fun idx =>
    x.defenderIdx != some idx && (defSide.mon idx).ability == abFriendGuard

def applySideModifiers (x : PostRollCtx) (damage : Int) : Int :=
  if x.defSideIdx ≥ 0 then
    let damage := scaleIf (behindScreen x)
      (if x.state.format = formatDoubles then 2732 / 4096 else 1 / 2) damage
    let damage := scaleIf (x.attacker.ability = abAnalytic ∧ actedLast x) (13 / 10) damage
    scaleIf (¬ x.breaksMold ∧ hasFriendGuard x) (3 / 4) damage
  else damage

def applyModifiers (x : PostRollCtx) (damage : Int) : Int :=
  max 1 (applySideModifiers x (applyHolderModifiers x (applyTypeModifiers x damage)))

def applyRollAndModifiers (preRollDamage : Int) (rollInt : Nat) (x : PostRollCtx) : Int :=
  applyModifiers x ((preRollDamage * (85 + rollInt)).tdiv 100)

end Roll

section Main

def situationalBp (c : DamageCall) (bp : Int) : Int :=
  let breaksMold := isMoldBreaker c.attacker.ability
  let bp :=
    if hasTimedVolatile c.defender veSemiInvulnerable ∧ c.defender.chargingMoveSlot ≥ 0 ∧
      semiInvulnDoubleDmg (chargingMoveId c.defender) c.moveId then bp * 2
    else bp
  let sticky := c.defender.ability == abStickyHold && !breaksMold
  let isMega := megaItems.contains c.defender.item
  let isSilvallyMemory :=
    silvallySpecies.contains c.defender.species && memoryItems.contains c.defender.item
  scaleIf (c.moveId = moveKnockOff ∧ c.defender.item ≠ itemNone ∧
    ¬ isMega ∧ ¬ isSilvallyMemory ∧ ¬ sticky) (3 / 2) bp

def isPhysicalHit (c : DamageCall) (md : MoveData) : Bool :=
  let isPhysical := md.category == catPhysical
  let isPhysical :=
    if c.moveId = movePhotonGeyser ∧
      effectiveStat c.attacker 1 false > effectiveStat c.attacker 3 false then true
    else isPhysical
  if c.moveId = moveShellSideArm then
    let physProduct := effectiveStat c.attacker 1 false * effectiveStat c.defender 4 false
    let specProduct := effectiveStat c.attacker 3 false * effectiveStat c.defender 2 false
    if physProduct > specProduct then true
    else if specProduct > physProduct then false
    else decide (c.procThreshold ≤ 50)
  else isPhysical

def pinchType (ability : Int32) : Option Int32 :=
  if ability = abBlaze then some typeFire
  else if ability = abTorrent then some typeWater
  else if ability = abOvergrow then some typeGrass
  else if ability = abSwarm then some typeBug
  else none

def pinchActive (attacker : PokemonState) (moveType : Int32) : Bool :=
  pinchType attacker.ability == some moveType &&
    decide (curHpOf attacker ≤ (maxHpOf attacker).tdiv 3)

def hitBp (c : DamageCall) (md : MoveData) : Int :=
  let resolved := resolveMoveTypeAndBp c md
  computeBp c md resolved.1 (isPhysicalHit c md) (situationalBp c resolved.2)

def baseDamage (level bp atk defVal : Int) : Int :=
  let step1 := (2 * level).tdiv 5 + 2
  let step2 := step1 * bp
  let step3 := step2 * atk
  let step4 := step3.tdiv defVal
  step4.tdiv 50 + 2

def preCritDamage (c : DamageCall) (md : MoveData) (isCrit : Bool) : Int :=
  let isPhysical := isPhysicalHit c md
  let damage := baseDamage c.attacker.level.toInt (hitBp c md)
    (computeAttackStat c isPhysical isCrit) (computeDefenseStat c isPhysical isCrit)
  let damage := scaleIf (c.spreadHit ∧
    (md.target = targetAllAdjacentFoes ∨ md.target = targetAllAdjacent) ∧
    c.state.format = formatDoubles) (3 / 4) damage
  applyWeather damage (resolveMoveTypeAndBp c md).1 c.state

/-- The critical factor; Sniper applies it twice. -/
def applyCrit (attacker : PokemonState) (isCrit : Bool) (damage : Int) : Int :=
  scaleIf (isCrit ∧ attacker.ability = abSniper) (3 / 2) (scaleIf isCrit (3 / 2) damage)

def postRollCtx (c : DamageCall) (md : MoveData) (isCrit : Bool) : PostRollCtx :=
  let moveType := (resolveMoveTypeAndBp c md).1
  { effectiveness := typeEffectivenessProduct c moveType
    moveType := moveType
    moveId := c.moveId
    pinchActive := pinchActive c.attacker moveType
    breaksMold := isMoldBreaker c.attacker.ability
    isPhysical := isPhysicalHit c md
    isCrit := isCrit
    magicRoom := hasPseudoWeather c.state pwMagicRoom
    aiScoringView := c.aiScoringView
    defSideIdx := c.defSideIdx
    mdTags := md.tags
    attacker := c.attacker
    defender := c.defender
    defenderIdx := c.defenderIdx
    state := c.state }

/-- A hit that does nothing: a status move, a move without power, or an immune defender. -/
def dealsNothing (c : DamageCall) (md : MoveData) : Bool :=
  let resolved := resolveMoveTypeAndBp c md
  md.category == catStatus || (md.basePower == 0 && c.bpOverride == 0) ||
    (c.moveId == moveNaturalGift && resolved.2 == 0) || typeEffectivenessProduct c resolved.1 == 0

def calculateDamage (moves : List MoveData) (c : DamageCall) (rollIndex : Nat) (isCrit : Bool) :
    Except String Int := do
  let md ← lookupMove moves c.moveId
  if dealsNothing c md then pure 0
  else
    let damage := applyCrit c.attacker isCrit (preCritDamage c md isCrit)
    pure (applyRollAndModifiers damage rollIndex (postRollCtx c md isCrit))

def rollDamage (c : DamageCall) (md : MoveData) (isCrit : Bool) (roll : Nat) : Int :=
  if dealsNothing c md then 0
  else applyRollAndModifiers (applyCrit c.attacker isCrit (preCritDamage c md isCrit)) roll
    (postRollCtx c md isCrit)

end Main

section Table

structure DamageTable where
  noncrit : List Int
  crit : List Int
  immune : Bool
  maxHits : Int8
  hitCountSupport : List Int

def distinctSorted (l : List Int) : List Int := (l.mergeSort (· ≤ ·)).dedup

def hitCountSupport (attacker : PokemonState) (moveId : Int32) (minH maxH : Int8) : List Int :=
  if maxH = 1 then [1]
  else if attacker.ability = abSkillLink ∧ maxH > 1 then [maxH.toInt]
  else if attacker.ability = abBattleBond ∧ attacker.species = 10018 ∧ moveId = 360 then [3]
  else if minH = 2 ∧ maxH = 5 then [2, 3, 4, 5]
  else (List.range (maxH.toInt + 1 - minH.toInt).toNat).map fun (k : Nat) => minH.toInt + k

def damageTableOf (moves : List MoveData) (c : DamageCall) : Except String DamageTable := do
  let md ← lookupMove moves c.moveId
  let noncrit ← (List.range 16).mapM fun roll => calculateDamage moves c roll false
  let crit ← (List.range 16).mapM fun roll => calculateDamage moves c roll true
  let minH := if md.minHits ≤ 0 then 1 else md.minHits
  let maxH := if md.maxHits ≤ 0 then 1 else md.maxHits
  pure {
    noncrit := distinctSorted noncrit
    crit := distinctSorted crit
    immune := noncrit.all (· == 0) && crit.all (· == 0)
    maxHits := maxH
    hitCountSupport := hitCountSupport c.attacker c.moveId minH maxH }

def activeCall (state : BattleState) (attackerSide : Int) (moveId : Int32) : DamageCall :=
  let defSide := 1 - attackerSide
  let atkIdx := (state.side attackerSide).activeIndices.toList.headD 0
  let defIdx := (state.side defSide).activeIndices.toList.headD 0
  { attacker := (state.side attackerSide).mon atkIdx
    moveId := moveId
    defender := (state.side defSide).mon defIdx
    state := state
    defSideIdx := defSide
    attackerIdx := some atkIdx
    defenderIdx := some defIdx }

def tableIsVacuous (t : DamageTable) : Bool :=
  t.crit.isEmpty || t.noncrit.isEmpty || (t.noncrit.all (· == 0) && t.crit.all (· == 0))

def weakCritDominance (t : DamageTable) : Bool :=
  if tableIsVacuous t then true
  else decide (t.crit.min?.getD 0 ≥ t.noncrit.max?.getD 0)

end Table

end Engine

end NuzlockeSolver
