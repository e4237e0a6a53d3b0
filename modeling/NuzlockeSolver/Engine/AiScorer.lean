import NuzlockeSolver.Engine.AiDamage

/-!
# The scores of the AI

`cpp_dist_action`: the distribution of the score of each action, by kind of move. Percentages are
rationals.
-/

namespace NuzlockeSolver

namespace Engine

abbrev ScoreDist := List (Int × ℚ)

def fixedScore (score : Int) : ScoreDist := [(score, 1)]

section Predicates

variable (moves : List MoveData) (state : BattleState) (aiIdx : Int)

def hpPct (mon : PokemonState) : ℚ := (mon.hp.toInt : ℚ) / mon.maxHp.toInt

def isIncapacitated (mon : PokemonState) : Bool :=
  mon.status == statusSleep || mon.status == statusFreeze || hasVolatile mon volatileRecharging ||
    (mon.ability == abTruant && hasVolatile mon volatileTruantLoafing)

def hasProtectDebuff (mon : PokemonState) : Bool :=
  mon.status == statusPoison || mon.status == statusToxic || mon.status == statusBurn ||
    hasVolatile mon (volatileCursed ||| volatileLeechSeeded ||| volatilePerishSong |||
      volatileAttracted) || hasTimedVolatile mon veDrowsy

def isMoveSuperEffective (md : MoveData) (plMon : PokemonState) : Bool :=
  1 < (plMon.types.toList.map fun t =>
    let factor := typeEff md.moveType t
    if factor = 0 ∧ plMon.item = itemRingTarget then 1 else factor).prod

def usableMoves (mon : PokemonState) : List MoveData :=
  ([0, 1, 2, 3] : List Int).filterMap fun slot =>
    if moveIdAt mon slot = moveNone ∨ movePpAt mon slot = 0 then none
    else moveDataGet moves (moveIdAt mon slot)

def hasSplit (mon : PokemonState) (category : Int32) : Bool :=
  (usableMoves moves mon).any (·.category == category)

def knowsMove (mon : PokemonState) (moveId : Int32) : Bool :=
  ([0, 1, 2, 3] : List Int).any (moveIdAt mon · == moveId)

def playerAttacks : List MoveData :=
  (usableMoves moves (activeMon state (1 - aiIdx))).filter (·.basePower != 0)

def playerEstimate (md : MoveData) : Int :=
  expectedDamage state (activeRef state (1 - aiIdx)) md (activeRef state aiIdx)
    { luck := averageLuck }

def aiEstimate (md : MoveData) : Int :=
  expectedDamage state (activeRef state aiIdx) md (activeRef state (1 - aiIdx)) { luck := maxLuck }

def playerCanKoAi : Bool :=
  let aiMon := activeMon state aiIdx
  if aiMon.ability = abSturdy ∧ aiMon.hp = aiMon.maxHp then false
  else (playerAttacks moves state aiIdx).any fun md =>
    canKo state (activeRef state (1 - aiIdx)) md (activeRef state aiIdx) { luck := averageLuck }

def playerCanNhkoAi (n : Int) : Bool :=
  (playerAttacks moves state aiIdx).any fun md =>
    decide ((activeMon state aiIdx).hp.toInt ≤ playerEstimate state aiIdx md * n)

def playerDealsZeroDamage : Bool :=
  (playerAttacks moves state aiIdx).all fun md => !decide (playerEstimate state aiIdx md > 0)

def maxPlayerDamage : Int :=
  ((playerAttacks moves state aiIdx).map (playerEstimate state aiIdx)).foldl max 0

def survivesLethalHit (aiMon : PokemonState) : Bool :=
  aiMon.hp == aiMon.maxHp && (aiMon.item == itemFocusSash || aiMon.ability == abSturdy)

def shouldRecover (healPct : ℚ) : ℚ × ℚ :=
  let aiMon := activeMon state aiIdx
  if aiMon.status = statusToxic then (0, 1)
  else
    let heal := truncate (aiMon.maxHp.toInt * healPct)
    let maxPlDmg := maxPlayerDamage moves state aiIdx
    if heal ≤ maxPlDmg then (0, 1)
    else
      let pct := hpPct aiMon
      let canKoNow := playerCanKoAi moves state aiIdx
      let healedHp := min aiMon.maxHp.toInt (aiMon.hp.toInt + heal)
      if aiFaster state aiIdx then
        if canKoNow ∧ ¬ healedHp ≤ maxPlDmg then (1, 0)
        else if ¬ canKoNow ∧ pct ≤ 2 / 5 then (1, 0)
        else if ¬ canKoNow ∧ pct < 66 / 100 then (1 / 2, 1 / 2)
        else (0, 1)
      else if pct < 1 / 2 then (1, 0)
      else if pct < 7 / 10 then (3 / 4, 1 / 4)
      else (0, 1)

def countSideConditions (side : SideState) (conds : List Int32) : Nat :=
  side.sideConditions.toList.countP fun sc => conds.contains sc.condition

def livingCount (side : SideState) : Nat := side.team.toList.countP (!·.fainted)

end Predicates

section Status

variable (moves : List MoveData) (state : BattleState) (aiIdx : Int)

/-- A score and an alternative, of which the impossible one is left out. -/
def recoverDist (score : Int) (p : ℚ × ℚ) : ScoreDist :=
  let out := (if p.1 > 0 then [(score, p.1)] else []) ++ if p.2 > 0 then [(5, p.2)] else []
  if out.isEmpty then fixedScore 5 else out

def distRecovery (healPct : ℚ) : ScoreDist :=
  let pct := hpPct (activeMon state aiIdx)
  if pct ≥ 1 then fixedScore (-20)
  else if pct ≥ 85 / 100 then fixedScore (-6)
  else recoverDist 7 (shouldRecover moves state aiIdx healPct)

def distRest : ScoreDist :=
  let aiMon := activeMon state aiIdx
  let pct := hpPct aiMon
  if pct ≥ 1 then fixedScore (-20)
  else if pct ≥ 85 / 100 then fixedScore (-6)
  else
    let hasCure := aiMon.item = itemLumBerry ∨ aiMon.item = itemChestoBerry ∨
      aiMon.ability = abEarlyBird ∨ aiMon.ability = abShedSkin ∨ aiMon.ability = abHydration
    recoverDist (if hasCure then 8 else 7) (shouldRecover moves state aiIdx 1)

def distProtect : ScoreDist :=
  let aiMon := activeMon state aiIdx
  let base : Int := 6
  let base := if hasProtectDebuff aiMon then base - 2 else base
  let base := if hasProtectDebuff (activeMon state (1 - aiIdx)) then base + 1 else base
  fixedScore
    (if aiMon.turnsInBattle = 0 ∧ state.format ≠ formatDoubles then base - 1 else base)

def hazardDist (firstTurn : Bool) (adj : Int) : ScoreDist :=
  if firstTurn then [(8 + adj, 1 / 4), (9 + adj, 3 / 4)]
  else [(6 + adj, 1 / 4), (7 + adj, 3 / 4)]

def layeredHazardDist (firstTurn : Bool) (existing limit : Nat) : ScoreDist :=
  if limit ≤ existing then fixedScore (-20)
  else hazardDist firstTurn (if existing > 0 then -1 else 0)

def distHazard (moveId : Int32) : ScoreDist :=
  let oppSide := state.side (1 - aiIdx)
  let firstTurn : Bool := (activeMon state aiIdx).turnsInBattle == 0
  if moveId = moveStealthRock then
    if hasSideCondition oppSide scStealthRock then fixedScore (-20) else hazardDist firstTurn 0
  else if moveId = moveSpikes then
    layeredHazardDist firstTurn (countSideConditions oppSide [scSpikes1, scSpikes2, scSpikes3]) 3
  else if moveId = moveToxicSpikes then
    layeredHazardDist firstTurn (countSideConditions oppSide [scToxicSpikes1, scToxicSpikes2]) 2
  else if moveId = moveStickyWeb then
    if hasSideCondition oppSide scStickyWeb then fixedScore (-20)
    else if firstTurn then [(9, 1 / 4), (12, 3 / 4)]
    else [(6, 1 / 4), (9, 3 / 4)]
  else fixedScore 6

def distScreen (moveId : Int32) : ScoreDist :=
  let aiSide := state.side aiIdx
  let isLightScreen : Bool := moveId == moveLightScreen
  if isLightScreen ∧ hasSideCondition aiSide scLightScreen then fixedScore (-40)
  else if ¬ isLightScreen ∧ hasSideCondition aiSide scReflect then fixedScore (-40)
  else
    let plMon := activeMon state (1 - aiIdx)
    let known := (([0, 1, 2, 3] : List Int).filter (moveIdAt plMon · != moveNone)).filterMap
      fun slot => moveDataGet moves (moveIdAt plMon slot)
    if known.any (·.category == if isLightScreen then catSpecial else catPhysical) then
      let clayBonus : Int := if (activeMon state aiIdx).item = itemLightClay then 1 else 0
      [(6 + clayBonus + 1, 1 / 2), (6 + clayBonus, 1 / 2)]
    else fixedScore 6

def distParalysis (md : MoveData) : ScoreDist :=
  let aiMon := activeMon state aiIdx
  let plMon := activeMon state (1 - aiIdx)
  if md.moveType = typeElectric ∧ (hasType plMon typeGround ∨ hasType plMon typeElectric) then
    fixedScore (-40)
  else if plMon.ability = abLimber then fixedScore (-40)
  else if plMon.status ≠ statusNone then fixedScore (-20)
  else
    let plSpe := effectiveStat plMon 5 false
    let aiSpe := effectiveStat aiMon 5 false
    let base : Int := if aiSpe < plSpe ∧ max 1 (plSpe.tdiv 4) < aiSpe then 8 else 7
    [(base - 1, 1 / 2), (base, 1 / 2)]

inductive SetupKind
  | offensive
  | defensive
  | speed

def distSetup (kind : SetupKind) : ScoreDist :=
  let aiMon := activeMon state aiIdx
  let threatened := playerCanKoAi moves state aiIdx && !survivesLethalHit aiMon
  let slower2hko := !aiFaster state aiIdx && playerCanNhkoAi moves state aiIdx 2
  let incap := isIncapacitated (activeMon state (1 - aiIdx))
  let penalty : Int := if slower2hko then 5 else 0
  match kind with
  | .speed => if aiFaster state aiIdx then fixedScore (-20) else fixedScore 7
  | .offensive =>
    if threatened then fixedScore (-20) else fixedScore (6 + (if incap then 3 else 0) - penalty)
  | .defensive =>
    if threatened then fixedScore (-20)
    else if incap then [(6 - penalty + 2, 95 / 100), (6 - penalty, 5 / 100)]
    else fixedScore (6 - penalty)

def distTailwind : ScoreDist :=
  let aiSide := state.side aiIdx
  let plSide := state.side (1 - aiIdx)
  if hasSideCondition aiSide scTailwind then fixedScore (-40)
  else
    let living (side : SideState) :=
      (side.activeIndices.toList.map side.mon).filter (!·.fainted)
    let useful := (living aiSide).any fun aiMon => (living plSide).any fun plMon =>
      decide (effectiveStat aiMon 5 false < effectiveStat plMon 5 false)
    if useful then fixedScore 9 else fixedScore 5

def distTrickRoom : ScoreDist :=
  if hasPseudoWeather state pwTrickRoom then fixedScore (-20)
  else if effectiveStat (activeMon state aiIdx) 5 false <
    effectiveStat (activeMon state (1 - aiIdx)) 5 false then fixedScore 10
  else fixedScore 5

def distTerrain : ScoreDist :=
  if state.terrain ≠ 0 then fixedScore (-40)
  else if (activeMon state aiIdx).item = itemTerrainExtender then fixedScore 9
  else fixedScore 8

def distPoisonMove (seesKill : Bool) : ScoreDist :=
  let aiMon := activeMon state aiIdx
  let plMon := activeMon state (1 - aiIdx)
  if plMon.status ≠ statusNone then fixedScore (-40)
  else if (hasType plMon typePoison ∨ hasType plMon typeSteel) ∧ aiMon.ability ≠ abCorrosion then
    fixedScore (-40)
  else if (plMon.hp.toInt * 100).tdiv plMon.maxHp.toInt > 20 ∧ ¬ seesKill ∧
    playerDealsZeroDamage moves state aiIdx ∧
    (knowsMove aiMon moveHex ∨ aiMon.ability = abMerciless) then
    [(8, 38 / 100), (6, 62 / 100)]
  else fixedScore 6

def distWillOWisp : ScoreDist :=
  let plMon := activeMon state (1 - aiIdx)
  if hasType plMon typeFire then fixedScore (-20)
  else if plMon.status ≠ statusNone then fixedScore (-20)
  else [(7, 37 / 100), (6, 63 / 100)]

def distSubstitute : ScoreDist :=
  let aiMon := activeMon state aiIdx
  if (aiMon.hp.toInt * 100).tdiv aiMon.maxHp.toInt ≤ 50 then fixedScore (-40)
  else if (activeMon state (1 - aiIdx)).ability = abInfiltrator then fixedScore (-40)
  else if hasVolatile aiMon volatileSubstitute then fixedScore (-40)
  else fixedScore 6

def distBellyDrum : ScoreDist :=
  let aiMon := activeMon state aiIdx
  let maxHp := aiMon.maxHp.toInt
  if aiMon.stage0 ≥ 6 ∨ aiMon.hp.toInt ≤ maxHp.tdiv 2 then fixedScore (-40)
  else if isIncapacitated (activeMon state (1 - aiIdx)) then fixedScore 9
  else
    let sitrus : Int := if aiMon.item = itemSitrusBerry then maxHp.tdiv 4 else 0
    let postDrumHp := min (maxHp.tdiv 2 + sitrus) maxHp
    if (playerAttacks moves state aiIdx).any fun md =>
      decide (postDrumHp ≤ playerEstimate state aiIdx md) then [(6, 1 / 2), (4, 1 / 2)]
    else fixedScore 8

def koUnlessSashOrSturdy : Bool :=
  let aiMon := activeMon state aiIdx
  playerCanKoAi moves state aiIdx && aiMon.item != itemFocusSash &&
    !(aiMon.ability == abSturdy && aiMon.hp == aiMon.maxHp)

def distCritSetup (moveId : Int32) : ScoreDist :=
  let aiMon := activeMon state aiIdx
  let plMon := activeMon state (1 - aiIdx)
  let alreadyActive : Bool :=
    if moveId = moveFocusEnergy then decide (aiMon.critStage ≥ 2)
    else hasTimedVolatile aiMon veLaserFocus
  if alreadyActive then fixedScore (-40)
  else if plMon.ability = abShellArmor ∨ plMon.ability = abBattleArmor then fixedScore (-40)
  else if koUnlessSashOrSturdy moves state aiIdx then fixedScore (-40)
  else if aiMon.ability = abSuperLuck ∨ aiMon.ability = abSniper ∨ aiMon.item = itemScopeLens ∨
    ([0, 1, 2, 3] : List Int).any (fun slot => highCritMoves.contains (moveIdAt aiMon slot)) then
    [(14, 1 / 4), (7, 3 / 4)]
  else fixedScore 6

def addScore (k : Int) (dist : ScoreDist) : ScoreDist := dist.map fun sp => (sp.1 + k, sp.2)

/-- Unaware ignores the boosts of all setup moves but a few. -/
def unlessUnaware (moveId : Int32) (dist : ScoreDist) : ScoreDist :=
  if (activeMon state (1 - aiIdx)).ability = abUnaware ∧ ¬ unawareSetupExceptions.contains moveId then
    fixedScore (-40)
  else dist

def distSpecialAttackSetup : ScoreDist :=
  if (activeMon state (1 - aiIdx)).ability = abUnaware then fixedScore (-40)
  else addScore (if (activeMon state aiIdx).stage2 ≥ 2 then -1 else 0)
    (distSetup moves state aiIdx .offensive)

def partnerOf (side : SideState) : Option PokemonState :=
  ((side.activeIndices.toList.drop 1).map side.mon).find? (!·.fainted)

def distCoaching : ScoreDist :=
  if state.format ≠ formatDoubles then fixedScore (-20)
  else
    match partnerOf (state.side aiIdx) with
    | none => fixedScore (-20)
    | some partner =>
      if partner.ability = abContrary then fixedScore (-20)
      else
        let bonus (stage : Int) : Int := if stage < 2 then 1 - stage else 0
        let score := 6 + bonus partner.stage0.toInt + bonus partner.stage1.toInt
        [(score, 20 / 100), (score + 1, 80 / 100)]

end Status

section Special

variable (moves : List MoveData) (state : BattleState) (aiIdx : Int)

def splitScores (branches : List (Int × ℚ)) (dist : ScoreDist) : ScoreDist :=
  dist.flatMap fun sp => branches.map fun b => (sp.1 + b.1, sp.2 * b.2)

def distRolePlay : ScoreDist :=
  let aiSide := state.side aiIdx
  let valuable := ((aiSide.activeIndices.toList.drop 1).map aiSide.mon).any fun partner =>
    !partner.fainted && rolePlayValuableAbilities.contains partner.ability &&
      partner.ability != (activeMon state aiIdx).ability
  if state.format ≠ formatDoubles then fixedScore (-20)
  else if valuable then fixedScore 9
  else fixedScore (-20)

def distImprison : ScoreDist :=
  let plMon := activeMon state (1 - aiIdx)
  let shared := ([0, 1, 2, 3] : List Int).any fun slot =>
    let move := moveIdAt (activeMon state aiIdx) slot
    move != moveNone && knowsMove plMon move
  if ¬ (state.side (1 - aiIdx)).imprisonedMoves.toList.isEmpty then fixedScore (-20)
  else if shared then fixedScore 9
  else fixedScore (-20)

def distLeechSeed : ScoreDist :=
  let plMon := activeMon state (1 - aiIdx)
  if hasType plMon typeGrass then fixedScore (-20)
  else if hasVolatile plMon volatileLeechSeeded then fixedScore (-20)
  else fixedScore 6

def distFinalGambit (aiFst : Bool) : ScoreDist :=
  if aiFst ∧ (activeMon state aiIdx).hp > (activeMon state (1 - aiIdx)).hp then fixedScore 8
  else if aiFst ∧ playerCanKoAi moves state aiIdx then fixedScore 7
  else fixedScore 6

def sleepSynergy : Int :=
  let aiMon := activeMon state aiIdx
  let plMon := activeMon state (1 - aiIdx)
  let eater := knowsMove aiMon moveDreamEater || knowsMove aiMon moveNightmare
  let answered := knowsMove plMon moveSnore || knowsMove plMon moveSleepTalk
  1 + (if eater && !answered then 1 else 0) + if knowsMove aiMon moveHex then 1 else 0

def distSleepMove (seesKill : Bool) : ScoreDist :=
  let plMon := activeMon state (1 - aiIdx)
  if plMon.status ≠ statusNone then fixedScore (-20)
  else if state.terrain = terrainElectric ∨ state.terrain = terrainMisty then fixedScore (-20)
  else if plMon.ability = abInsomnia ∨ plMon.ability = abVitalSpirit ∨
    plMon.ability = abSweetVeil then fixedScore (-20)
  else if seesKill then fixedScore 6
  else [(6 + sleepSynergy state aiIdx, 1 / 4), (6, 3 / 4)]

def distTaunt (aiFst : Bool) : ScoreDist :=
  let plMon := activeMon state (1 - aiIdx)
  if hasVolatile plMon volatileTauntActive then fixedScore (-40)
  else if knowsMove plMon moveTrickRoom ∧ ¬ hasPseudoWeather state pwTrickRoom then fixedScore 9
  else if knowsMove plMon moveDefog ∧ hasSideCondition (state.side aiIdx) scAuroraVeil ∧ aiFst then
    fixedScore 9
  else fixedScore 5

def stages (mon : PokemonState) : List Int :=
  [mon.stage0.toInt, mon.stage1.toInt, mon.stage2.toInt, mon.stage3.toInt, mon.stage4.toInt,
    mon.stage5.toInt, mon.stage6.toInt]

def distBatonPass : ScoreDist :=
  let aiMon := activeMon state aiIdx
  if hasVolatile aiMon volatileSubstitute ∨ (stages aiMon).any (0 < ·) then fixedScore 14
  else if livingCount (state.side aiIdx) = 1 then fixedScore (-20)
  else fixedScore 0

def distMemento : ScoreDist :=
  let pct := hpPct (activeMon state aiIdx)
  if livingCount (state.side aiIdx) = 1 then fixedScore (-40)
  else if pct < 10 / 100 then fixedScore 16
  else if pct < 33 / 100 then [(14, 70 / 100), (6, 30 / 100)]
  else if pct < 66 / 100 then [(13, 50 / 100), (6, 50 / 100)]
  else [(13, 5 / 100), (6, 95 / 100)]

def distEncore (aiFst : Bool) : ScoreDist :=
  let plMon := activeMon state (1 - aiIdx)
  if hasVolatile plMon volatileEncoreActive then fixedScore (-40)
  else if plMon.lastUsedSlot = -1 then fixedScore (-40)
  else if ¬ aiFst then [(5, 1 / 2), (6, 1 / 2)]
  else fixedScore 6

def hesitate (c : Bool) (dist : ScoreDist) : ScoreDist :=
  if c then splitScores [(0, 3 / 4), (-1, 1 / 4)] dist else dist

def distCounter (isCounter aiFst : Bool) : ScoreDist :=
  let plMon := activeMon state (1 - aiIdx)
  let relevantCat := if isCounter then catPhysical else catSpecial
  let otherCat := if isCounter then catSpecial else catPhysical
  if hasType plMon (if isCounter then typeGhost else typeDark) then fixedScore (-20)
  else if ¬ hasSplit moves plMon relevantCat then fixedScore (-20)
  else if koUnlessSashOrSturdy moves state aiIdx then fixedScore (-20)
  else
    let base :=
      if hasSplit moves plMon otherCat then fixedScore 6
      else if playerCanKoAi moves state aiIdx then fixedScore 8
      else [(8, 80 / 100), (6, 20 / 100)]
    hesitate (hasSplit moves plMon catStatus) (hesitate aiFst base)

def distMagnetRise (aiFst : Bool) : ScoreDist :=
  let groundAttack := (playerAttacks moves state aiIdx).any (·.moveType == typeGround)
  if hasTimedVolatile (activeMon state aiIdx) veMagnetRise then fixedScore (-40)
  else if aiFst ∧ groundAttack then fixedScore 8
  else fixedScore 5

def isSleepMove (moveId : Int32) : Bool :=
  [moveYawn, moveHypnosis, moveSing, moveGrassWhistle, moveDarkVoid].contains moveId

def distStatusSpecial (moveId : Int32) (aiFst seesKill : Bool) : ScoreDist :=
  if moveId = moveRolePlay then distRolePlay state aiIdx
  else if moveId = moveImprison then distImprison state aiIdx
  else if moveId = moveSleepTalk then
    if (activeMon state aiIdx).status = statusSleep then fixedScore 6 else fixedScore (-40)
  else if moveId = moveLeechSeed then distLeechSeed state aiIdx
  else if moveId = moveFinalGambit then distFinalGambit moves state aiIdx aiFst
  else if isSleepMove moveId then distSleepMove state aiIdx seesKill
  else if moveId = moveScaryFace then if aiFst then fixedScore (-20) else fixedScore 6
  else if moveId = moveHelpingHand ∨ moveId = moveFollowMe then
    if state.format ≠ formatDoubles then fixedScore 0 else fixedScore 6
  else
    match weatherMoveWeathers.lookup moveId with
    | some weather => if state.weather = weather then fixedScore (-40) else fixedScore 6
    | none =>
      if moveId = moveTaunt then distTaunt state aiIdx aiFst
      else if moveId = moveBatonPass then distBatonPass state aiIdx
      else if moveId = moveMemento then distMemento state aiIdx
      else if moveId = moveEncore then distEncore state aiIdx aiFst
      else if moveId = moveCounter ∨ moveId = moveMirrorCoat then
        distCounter moves state aiIdx (moveId == moveCounter) aiFst
      else if moveId = moveMagnetRise then distMagnetRise moves state aiIdx aiFst
      else fixedScore 6

end Special

section Damaging

variable (moves : List MoveData) (state : BattleState) (aiIdx : Int)

def killBonus (aiFst : Bool) : Int :=
  (if aiFst then 6 else 3) +
    if moxieAbilities.contains (activeMon state aiIdx).ability then 1 else 0

/-- The moves left out of the damage ranking check for a kill themselves. -/
def seesOwnKill (md : MoveData) : Bool :=
  decide ((activeMon state (1 - aiIdx)).hp.toInt ≤ aiEstimate state aiIdx md)

def additiveDist (base : Int) (md : MoveData) (aiFst : Bool) : ScoreDist :=
  if seesOwnKill state aiIdx md then fixedScore (base + killBonus state aiIdx aiFst)
  else fixedScore base

def isContrarySetup (md : MoveData) : Bool :=
  (activeMon state aiIdx).ability == abContrary &&
    [moveOverheat, moveLeafStorm, moveSuperpower].contains md.moveId

def fakeOutFails (md : MoveData) : Bool :=
  let plMon := activeMon state (1 - aiIdx)
  plMon.ability == abShieldDust || plMon.ability == abInnerFocus ||
    (activeMon state aiIdx).turnsInBattle != 0 || isTypeImmune md plMon

def isExplosion (moveId : Int32) : Bool :=
  [moveExplosion, moveSelfDestruct, moveMistyExplosion].contains moveId

def explosionDist : ScoreDist :=
  let pct := hpPct (activeMon state aiIdx)
  let base : ScoreDist :=
    if pct < 10 / 100 then fixedScore 10
    else if pct < 33 / 100 then [(8, 70 / 100), (0, 30 / 100)]
    else if pct < 66 / 100 then [(7, 50 / 100), (0, 50 / 100)]
    else [(7, 5 / 100), (0, 95 / 100)]
  let lastStand :=
    livingCount (state.side aiIdx) = 1 ∧ livingCount (state.side (1 - aiIdx)) = 1
  addScore (if lastStand then -1 else 0) base

def rankDist (pHighest : ℚ) (kills aiFst : Bool) : ScoreDist :=
  if kills then
    let kb := killBonus state aiIdx aiFst
    [(6 + kb, 80 / 100), (8 + kb, 20 / 100)]
  else if pHighest ≤ 0 then fixedScore 0
  else if pHighest ≥ 1 then [(6, 80 / 100), (8, 20 / 100)]
  else [(6, 80 / 100 * pHighest), (8, 20 / 100 * pHighest), (0, 1 - pHighest)]

def isPriorityMove (md : MoveData) : Bool :=
  decide (md.priority > 0) || (md.moveId == moveGrassyGlide && state.terrain == terrainGrassy)

def earlyBonus (md : MoveData) (aiFst : Bool) : Int :=
  (if md.moveId = moveAcidSpray then 6 else 0) + (if md.moveId = moveFakeOut then 9 else 0) +
    if playerCanKoAi moves state aiIdx ∧ ¬ aiFst ∧ isPriorityMove state md then 11 else 0

def distFutureSight (md : MoveData) (aiFst : Bool) : ScoreDist :=
  if seesOwnKill state aiIdx md then fixedScore (killBonus state aiIdx aiFst)
  else if aiFst ∧ playerCanKoAi moves state aiIdx then fixedScore 8
  else fixedScore 6

def distTrapping (md : MoveData) (aiFst : Bool) : ScoreDist :=
  if seesOwnKill state aiIdx md then fixedScore (killBonus state aiIdx aiFst)
  else [(6, 80 / 100), (8, 20 / 100)]

def pursuitDist (kills aiFst : Bool) (dist : ScoreDist) : ScoreDist :=
  let pct := hpPct (activeMon state (1 - aiIdx))
  let dist :=
    if kills ∨ pct ≤ 20 / 100 then addScore 10 dist
    else if pct ≤ 40 / 100 then splitScores [(8, 1 / 2), (0, 1 / 2)] dist
    else dist
  addScore (if aiFst then 3 else 0) dist

def allZero (dist : ScoreDist) : Bool := dist.all fun sp => sp.1 == 0

def blocksStatReduction : Bool :=
  statReductionAbilities.contains (activeMon state (1 - aiIdx)).ability

def fallbackDist (md : MoveData) (kills aiFst : Bool) (dist : ScoreDist) : ScoreDist :=
  let plMon := activeMon state (1 - aiIdx)
  if speedReductionMoves.contains md.moveId ∧ ¬ kills ∧ allZero dist then
    if ¬ blocksStatReduction state aiIdx ∧ ¬ aiFst then fixedScore 6 else fixedScore 5
  else if statReductionDamageMoves.contains md.moveId ∧ ¬ kills ∧ allZero dist then
    let physical := md.moveId = moveTropKick ∨ md.moveId = moveBreakingSwipe
    if ¬ blocksStatReduction state aiIdx ∧
      hasSplit moves plMon (if physical then catPhysical else catSpecial) then fixedScore 6
    else fixedScore 5
  else if md.moveId = moveFlameCharge ∧ ¬ kills ∧ allZero dist then
    if aiFst then fixedScore 0 else fixedScore 6
  else
    let groundable := (hasType plMon typeFlying ∨ plMon.ability = abLevitate) ∧
      ¬ hasTimedVolatile plMon veGrounded
    let dist := addScore
      (if (md.moveId = moveSmackDown ∨ md.moveId = moveThousandArrows) ∧ groundable then 6 else 0)
      dist
    if highCritMoves.contains md.moveId ∧ isMoveSuperEffective md plMon then
      splitScores [(0, 1 / 2), (1, 1 / 2)] dist
    else dist

def distRanked (md : MoveData) (pHighest : ℚ) (kills aiFst : Bool) : ScoreDist :=
  let dist := addScore (earlyBonus moves state aiIdx md aiFst)
    (rankDist state aiIdx pHighest kills aiFst)
  if md.moveId = moveFutureSight then distFutureSight moves state aiIdx md aiFst
  else if isTrapping md.moveId then distTrapping state aiIdx md aiFst
  else
    let dist :=
      if md.moveId = moveSuckerPunch ∧ (activeMon state aiIdx).suckerPunchLastTurn then
        splitScores [(-20, 1 / 2), (0, 1 / 2)] dist
      else dist
    let dist := if md.moveId = movePursuit then pursuitDist state aiIdx kills aiFst dist else dist
    fallbackDist moves state aiIdx md kills aiFst dist

def distDamage (md : MoveData) (pHighest : ℚ) (kills aiFst : Bool) : ScoreDist :=
  let aiMon := activeMon state aiIdx
  let plMon := activeMon state (1 - aiIdx)
  if md.moveId = moveRollout then fixedScore 7
  else if md.moveId = moveRelicSong then
    additiveDist state aiIdx (if aiMon.species = speciesMeloettaPirouette then -20 else 10) md aiFst
  else if md.moveId = moveMeteorBeam then
    additiveDist state aiIdx (if aiMon.item = itemPowerHerb then 9 else -20) md aiFst
  else if isContrarySetup state aiIdx md ∧ ¬ kills ∧ pHighest ≤ 0 then
    if isIncapacitated plMon then fixedScore 9 else fixedScore 6
  else if md.moveId = moveFakeOut ∧ fakeOutFails state aiIdx md then fixedScore (-40)
  else if md.moveId = moveFirstImpression ∧ aiMon.turnsInBattle > 0 then fixedScore (-50)
  else if md.moveId = moveFellStinger ∧ kills ∧ aiMon.stage0 < 6 then
    if aiFst then [(21, 80 / 100), (23, 20 / 100)] else [(15, 80 / 100), (17, 20 / 100)]
  else if state.terrain = terrainPsychic ∧ md.priority > 0 then fixedScore (-40)
  else if isFixedDamageRankMove md.moveId ∧ isTypeImmune md plMon then fixedScore (-40)
  else if isExplosion md.moveId ∧ (isTypeImmune md plMon ∨
    (livingCount (state.side aiIdx) = 1 ∧ livingCount (state.side (1 - aiIdx)) ≥ 2)) then
    fixedScore (-40)
  else if isExplosion md.moveId ∧ ¬ kills then explosionDist state aiIdx
  else distRanked moves state aiIdx md pHighest kills aiFst

end Damaging

section Action

variable (moves : List MoveData) (state : BattleState) (aiIdx : Int)

def isDamaging (md : MoveData) : Bool :=
  md.moveId == moveRollout || md.moveId == moveRelicSong || md.moveId == moveMeteorBeam ||
    isFixedDamageRankMove md.moveId || md.tags &&& tagDamage != 0

/-- Powder does nothing to Grass types, Overcoat and Safety Goggles. -/
def powderFails (md : MoveData) : Bool :=
  let plMon := activeMon state (1 - aiIdx)
  md.tags &&& tagPowder != 0 &&
    (hasType plMon typeGrass || plMon.ability == abOvercoat || plMon.item == itemSafetyGoggles)

def isOffensiveSetup (md : MoveData) : Bool :=
  md.moveId == moveShellSmash || offensiveSetupMoves.contains md.moveId ||
    (md.tags &&& tagSetup != 0 && md.category == catStatus && md.target == targetSelf)

def distSetupMove (md : MoveData) (aiFst seesKill : Bool) : ScoreDist :=
  let aiMon := activeMon state aiIdx
  if md.moveId = moveSubstitute then distSubstitute state aiIdx
  else if md.moveId = moveBellyDrum then distBellyDrum moves state aiIdx
  else if md.moveId = moveShellSmash ∧ (aiMon.stage0 ≥ 1 ∨ aiMon.stage2 ≥ 6) then fixedScore (-20)
  else if md.moveId = moveFocusEnergy ∨ md.moveId = moveLaserFocus then
    distCritSetup moves state aiIdx md.moveId
  else if speedSetupMoves.contains md.moveId then
    unlessUnaware state aiIdx md.moveId (distSetup moves state aiIdx .speed)
  else if md.moveId = moveNastyPlot ∨ md.moveId = moveTailGlow ∨ md.moveId = moveWorkUp then
    distSpecialAttackSetup moves state aiIdx
  else if md.moveId = moveCoaching then distCoaching state aiIdx
  else if isOffensiveSetup md then
    unlessUnaware state aiIdx md.moveId (distSetup moves state aiIdx .offensive)
  else if defensiveSetupMoves.contains md.moveId then
    unlessUnaware state aiIdx md.moveId (distSetup moves state aiIdx .defensive)
  else if md.moveId = moveTailwind then distTailwind state aiIdx
  else if md.moveId = moveTrickRoom then distTrickRoom state aiIdx
  else if terrainMoves.contains md.moveId then distTerrain state aiIdx
  else distStatusSpecial moves state aiIdx md.moveId aiFst seesKill

def distMove (md : MoveData) (pHighest : ℚ) (kills aiFst seesKill : Bool) : ScoreDist :=
  if isDamaging md then distDamage moves state aiIdx md pHighest kills aiFst
  else if protectMoves.contains md.moveId then distProtect state aiIdx
  else if md.tags &&& tagRecovery ≠ 0 ∨ recoveryMoveSet.contains md.moveId then
    distRecovery moves state aiIdx (1 / 2)
  else if weatherRecoveryMoves.contains md.moveId then
    let sun := state.weather = weatherSunny ∨ state.weather = weatherHarshSun
    distRecovery moves state aiIdx (if sun then 67 / 100 else 1 / 2)
  else if md.moveId = moveRest then distRest moves state aiIdx
  else if md.tags &&& tagHazard ≠ 0 then distHazard state aiIdx md.moveId
  else if md.tags &&& tagScreen ≠ 0 then distScreen moves state aiIdx md.moveId
  else if powderFails state aiIdx md then fixedScore (-50)
  else if paralysisMoves.contains md.moveId then distParalysis state aiIdx md
  else if md.moveId = moveWillOWisp then distWillOWisp state aiIdx
  else if poisonInflictMoves.contains md.moveId then distPoisonMove moves state aiIdx seesKill
  else distSetupMove moves state aiIdx md aiFst seesKill

def distAction (action : ExecAction) (pHighest : ℚ) (kills aiFst seesKill : Bool) : ScoreDist :=
  if action.kind = actionSwitch ∨ action.moveSlot < 0 then fixedScore 0
  else
    let moveId := moveIdAt (activeMon state aiIdx) action.moveSlot
    if moveId = moveNone then fixedScore 0
    else
      match moveDataGet moves moveId with
      | none => fixedScore 6
      | some md => distMove moves state aiIdx md pHighest kills aiFst seesKill

/-- A trapping move or Future Sight with PP left kills under the best roll. -/
def exceptionMoveSeesKill : Except String Bool :=
  let aiMon := activeMon state aiIdx
  ([0, 1, 2, 3] : List Int).anyM fun slot => do
    let moveId := moveIdAt aiMon slot
    if moveId = moveNone ∨ movePpAt aiMon slot = 0 then pure false
    else if ¬ isTrapping moveId ∧ moveId ≠ moveFutureSight then pure false
    else
      let md ← lookupMove moves moveId
      pure (seesOwnKill state aiIdx md)

end Action

end Engine

end NuzlockeSolver
