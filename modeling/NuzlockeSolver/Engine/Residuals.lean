import NuzlockeSolver.Engine.Exp
import NuzlockeSolver.Engine.Status
import NuzlockeSolver.Oracle.Fallible

/-!
# End-of-turn residuals

`cpp_apply_residuals`: the counters of the turn, then every battler's chain of effects in the order
of speed with the experience of the fallen after each chain, then Wish and Future Sight. The two
species tables and `pow` are parameters; logs are left out.
-/

namespace NuzlockeSolver

namespace Engine

open Effects FallibleTurn

section Values

def abSpeedBoost : Int32 := 3
def abHarvest : Int32 := 139
def abMoody : Int32 := 141
def abHealer : Int32 := 131
def abPoisonHeal : Int32 := 90
def abLiquidOoze : Int32 := 64
def abRainDish : Int32 := 44
def abIceBody : Int32 := 115
def abBadDreams : Int32 := 123
def abEmergencyExit : Int32 := 194
def abWimpOut : Int32 := 193
def abKlutz : Int32 := 103
def itemLeftovers : Int32 := 234
def itemBlackSludge : Int32 := 281
def itemStickyBarb : Int32 := 288
def itemFlameOrb : Int32 := 273
def itemToxicOrb : Int32 := 272
def itemBigRoot : Int32 := 296
def itemBindingBand : Int32 := 544
def volatileAquaRing : Int32 := 32768
def volatileIngrain : Int32 := 65536
def veRampaging : Int32 := 12
def veRoost : Int32 := 11
def veTaunt : Int32 := 2
def veEncore : Int32 := 1
def vePerishSong : Int32 := 3
def veOctolock : Int32 := 23
def veNightmare : Int32 := 26
def veLeechSeedSourceSlot : Int32 := 30

def sandstormImmuneAbilities : List Int32 := [8, 146, 159, 245, 142]

def hailImmuneAbilities : List Int32 := [abIceBody, 81, 142]

end Values

section Rules

structure ResidualRules where
  species : SpeciesTable
  speciesTypes : Int32 → Option (List Int32)
  pow : ℚ → ℚ

structure EffectsLuck extends MoveExecLuck where
  overrides : Bool := true

structure ResidualLuck where
  side0 : EffectsLuck
  side1 : EffectsLuck

def luckFor (luck : ResidualLuck) (sideIdx : Int) : EffectsLuck :=
  if sideIdx = 0 then luck.side0 else luck.side1

structure ResidualCtx where
  ctxPresent : Bool := false
  turnStartActiveNull : Bool := true
  turnStartActive : List (Int × Int32) := []
  expParticipants : ExpParticipants := []

structure PendingSwitch where
  sideIdx : Int
  reason : String
deriving DecidableEq

structure Battler where
  sideIdx : Int
  teamIdx : Int32
deriving DecidableEq

def Battler.mon (b : Battler) (state : BattleState) : PokemonState :=
  (state.side b.sideIdx).mon b.teamIdx

def Battler.oppIdx (b : Battler) : Int := 1 - b.sideIdx

def BattleState.rewrite (state : BattleState) (b : Battler) (f : PokemonState → PokemonState) :
    BattleState :=
  state.modifyMon b.sideIdx b.teamIdx f

def cppSpeciesTypes (rules : ResidualRules) (species : Int32) : Except String (List Int32) :=
  match rules.speciesTypes species with
  | some types => .ok types
  | none => .error ("cpp_species_types: id " ++ toString species.toInt ++ " not found")

def resolveProcDet (chance : Int) (luck : EffectsLuck) : Turn Bool :=
  .draw (.chance .procFires chance luck.procThreshold (-1)) fun fires => .done (fires != 0)

def veValue (mon : PokemonState) (ve : Int32) : Option Int32 :=
  (mon.timedVolatiles.toList.find? (·.effect == ve)).map (·.turns)

def getSpeed (mon : PokemonState) : Int :=
  let base := if mon.hasStats then mon.statSpe.toInt else 0
  let stage := mon.stage4.toInt
  if 0 ≤ stage then (base * (2 + stage)).tdiv 2 else (base * 2).tdiv (2 - stage)

def frontIdx (state : BattleState) (sideIdx : Int) : Int32 :=
  ((state.side sideIdx).activeIndices.toList.find? fun ti =>
    !((state.side sideIdx).mon ti).fainted).getD (activeIdx state sideIdx 0)

def itemsWork (state : BattleState) (mon : PokemonState) : Bool :=
  !(mon.ability == abKlutz || hasPseudoWeather state pwMagicRoom)

end Rules

section HitPoints

def share (mon : PokemonState) (n : Int) : Int := max 1 (mon.maxHp.toInt.tdiv n)

def loseHp (amount : Int) (mon : PokemonState) : PokemonState :=
  { mon with hp := Int32.ofInt (max 0 (mon.hp.toInt - amount)) }

def chip (n : Int) (mon : PokemonState) : PokemonState := loseHp (share mon n) mon

def refill (n : Int) (mon : PokemonState) : PokemonState := heal (share mon n) mon

def setFainted (mon : PokemonState) : PokemonState := { mon with fainted := true }

def faintIfSpent (notify : Bool) (state : BattleState) (b : Battler) : Bool × BattleState :=
  if (b.mon state).hp = 0 then
    let state := state.rewrite b setFainted
    let state := if notify then notifyFaintSoulHeart state else state
    (true, cppReleaseInflictedTraps state b.sideIdx b.teamIdx)
  else (false, state)

def residualDamage (notify : Bool) (n : Int) (state : BattleState) (b : Battler) :
    Bool × BattleState :=
  faintIfSpent notify (state.rewrite b (chip n)) b

def unlessFallen (r : Bool × BattleState) (f : BattleState → Bool × BattleState) :
    Bool × BattleState :=
  if r.1 then r else f r.2

def thenBerry (r : Bool × BattleState) (b : Battler) : Turn BattleState :=
  if r.1 then pure r.2
  else do
    let (_, state) ← checkBerry r.2 b.sideIdx b.oppIdx
    pure state

end HitPoints

section Bands

def sandstormHurts (mon : PokemonState) : Bool :=
  !(hasType mon typeRock || hasType mon typeSteel || hasType mon typeGround) &&
    !sandstormImmuneAbilities.contains mon.ability && mon.ability != abMagicGuard &&
    mon.item != itemSafetyGoggles

def hailHurts (mon : PokemonState) : Bool :=
  !hasType mon typeIce && !hailImmuneAbilities.contains mon.ability &&
    mon.ability != abMagicGuard && mon.item != itemSafetyGoggles

def weatherChip (weather : Int32) (mon : PokemonState) : PokemonState :=
  if weather = weatherSandstorm then if sandstormHurts mon then chip 16 mon else mon
  else if weather = weatherHail then
    if mon.ability = abIceBody then refill 16 mon
    else if hailHurts mon then chip 16 mon
    else mon
  else mon

def weatherSkin (weather : Int32) (mon : PokemonState) : PokemonState :=
  if mon.ability = abRainDish ∧ rainy weather then refill 16 mon
  else if mon.ability = abDrySkin then
    if rainy weather then refill 8 mon
    else if sunny weather then chip 8 mon
    else mon
  else mon

def solarPower (weather : Int32) (mon : PokemonState) : PokemonState :=
  if mon.ability = abSolarPower ∧ sunny weather then chip 8 mon else mon

def bandWeather (weather : Int32) (state : BattleState) (b : Battler) : BattleState :=
  (faintIfSpent true (state.rewrite b fun mon =>
    solarPower weather (weatherSkin weather (weatherChip weather mon))) b).2

def bandGrassyTerrain (state : BattleState) (b : Battler) : BattleState :=
  if state.terrain = terrainGrassy ∧ isGrounded (b.mon state) state then
    state.rewrite b (refill 16)
  else state

def shedSkin (luck : EffectsLuck) (state : BattleState) (b : Battler) : Turn BattleState :=
  let mon := b.mon state
  if mon.ability = abShedSkin ∧ mon.status ≠ statusNone then do
    let fires ← resolveProcDet 33 luck
    pure (if fires then state.rewrite b cureStatus else state)
  else pure state

def hydration (weather : Int32) (mon : PokemonState) : PokemonState :=
  if mon.ability = abHydration ∧ mon.status ≠ statusNone ∧ rainy weather then cureStatus mon
  else mon

def healer (luck : EffectsLuck) (state : BattleState) (b : Battler) : Turn BattleState :=
  let actives := (state.side b.sideIdx).activeIndices.toList
  if (b.mon state).ability = abHealer ∧ 1 < actives.length then
    match actives.find? (· != b.teamIdx) with
    | none => pure state
    | some ally => do
      let fires ← resolveProcDet 30 luck
      pure (if fires then state.rewrite ⟨b.sideIdx, ally⟩ cureStatus else state)
  else pure state

def bandStatusCure (weather : Int32) (luck : ResidualLuck) (state : BattleState) (b : Battler) :
    Turn BattleState := do
  let state ← shedSkin (luckFor luck b.sideIdx) state b
  healer (luckFor luck b.sideIdx) (state.rewrite b (hydration weather)) b

def bandItemHeal (state : BattleState) (b : Battler) : BattleState :=
  let mon := b.mon state
  if mon.item = itemLeftovers then
    if itemsWork state mon then state.rewrite b (refill 16) else state
  else if mon.item = itemBlackSludge then
    if ¬ itemsWork state mon then state
    else if hasType mon typePoison then state.rewrite b (refill 16)
    else (residualDamage false 8 state b).2
  else state

def bandRing (volatile : Int32) (state : BattleState) (b : Battler) : BattleState :=
  if hasVolatile (b.mon state) volatile then state.rewrite b (refill 16) else state

def bandAquaRing : BattleState → Battler → BattleState := bandRing volatileAquaRing

def bandIngrain : BattleState → Battler → BattleState := bandRing volatileIngrain

def seedDrain (mon : PokemonState) : Int := min (share mon 8) mon.hp.toInt

def seeder (state : BattleState) (b : Battler) : Battler :=
  let actives := (state.side b.oppIdx).activeIndices.toList
  ⟨b.oppIdx,
    match veValue (b.mon state) veLeechSeedSourceSlot with
    | some slot =>
      if slot.toInt < actives.length then actives.getD slot.toInt.toNat 0
      else frontIdx state b.oppIdx
    | none => frontIdx state b.oppIdx⟩

def seederTakes (drain : Int) (oozes : Bool) (opp : PokemonState) : PokemonState :=
  if opp.fainted then opp
  else if oozes then loseHp drain opp
  else heal (if opp.item = itemBigRoot then truncate (drain * (13 / 10)) else drain) opp

def seedWorks (mon : PokemonState) : Bool :=
  hasVolatile mon volatileLeechSeeded && mon.ability != abMagicGuard

def oozes (mon : PokemonState) : Bool := mon.ability == abLiquidOoze

def bandLeechSeed (state : BattleState) (b : Battler) : BattleState :=
  let mon := b.mon state
  if seedWorks mon then
    let drain := seedDrain mon
    let opp := seeder state b
    let state := state.rewrite b (loseHp drain)
    let state := state.rewrite opp (seederTakes drain (oozes mon))
    (faintIfSpent true state b).2
  else state

def poisonTick (mon : PokemonState) : PokemonState :=
  if mon.ability = abPoisonHeal ∧ poisons mon.status then refill 8 mon
  else if mon.status = statusToxic ∧ mon.ability ≠ abMagicGuard then
    { loseHp (max 1 ((mon.maxHp.toInt * mon.toxicTurns.toInt).tdiv 16)) mon with
      toxicTurns := Int32.ofInt (min (mon.toxicTurns.toInt + 1) 15) }
  else if mon.status = statusPoison ∧ mon.ability ≠ abMagicGuard then chip 8 mon
  else mon

def bandPoison (state : BattleState) (b : Battler) : Turn BattleState :=
  thenBerry (faintIfSpent true (state.rewrite b poisonTick) b) b

def burnTick (mon : PokemonState) : PokemonState :=
  if mon.status = statusBurn ∧ mon.ability ≠ abMagicGuard then
    chip (if mon.ability = abHeatproof then 32 else 16) mon
  else mon

def bandBurn (state : BattleState) (b : Battler) : Turn BattleState :=
  thenBerry (faintIfSpent true (state.rewrite b burnTick) b) b

def speedBoost (mon : PokemonState) : PokemonState :=
  if mon.ability = abSpeedBoost ∧ mon.turnsInBattle > 0 then
    { mon with stage4 := Int32.ofInt (min 6 (mon.stage4.toInt + 1)) }
  else mon

def takeBerryBack (mon : PokemonState) : PokemonState := { mon with item := mon.consumedBerry }

def harvest (weather : Int32) (luck : EffectsLuck) (state : BattleState) (b : Battler) :
    Turn BattleState :=
  let mon := b.mon state
  if mon.ability = abHarvest ∧ mon.item = itemNone ∧ mon.consumedBerry ≠ itemNone then do
    let fires ← resolveProcDet (if sunny weather then 100 else 50) luck
    pure (if fires then state.rewrite b takeBerryBack else state)
  else pure state

def answerPair : OracleAnswer → Int × Int
  | .pick i0 i1 => (i0, i1)
  | .order _ => (-1, -1)

def askMoody : Turn (Int × Int) :=
  .ask .moodyStats [0, 1, 2, 3, 4, 5, 6] fun answer =>
    .done ((answerPair answer).1.tmod 7, (answerPair answer).2.tmod 7)

def moody (luck : EffectsLuck) (state : BattleState) (b : Battler) : FallibleTurn BattleState :=
  if (b.mon state).ability ≠ abMoody then pure state
  else if ¬ luck.overrides then throw (.runtimeError "unported: moody")
  else do
    let picks ← ofTurn askMoody
    if picks.1 = picks.2 then throw (.runtimeError "MOODY_STATS answer boost==drop")
    else
      let boosted := (changeStatStage state b.sideIdx picks.1 2 false false false).2
      pure (changeStatStage boosted b.sideIdx picks.2 (-1) false false false).2

def haunted (opp : PokemonState) : PokemonState :=
  let newHp := max 0 (opp.hp.toInt - share opp 8)
  { opp with hp := Int32.ofInt newHp, fainted := newHp == 0 }

def badDreams (state : BattleState) (b : Battler) : BattleState :=
  let foe : Battler := ⟨b.oppIdx, frontIdx state b.oppIdx⟩
  let opp := foe.mon state
  if (b.mon state).ability = abBadDreams ∧ (opp.status = statusSleep ∨ opp.ability = abComatose) ∧
    ¬ opp.fainted ∧ opp.ability ≠ abMagicGuard then
    let state := state.rewrite foe haunted
    if (foe.mon state).fainted then cppReleaseInflictedTraps state foe.sideIdx foe.teamIdx
    else state
  else state

def orb (item status : Int32) (state : BattleState) (b : Battler) : BattleState :=
  let mon := b.mon state
  if mon.item = item ∧ mon.status = statusNone ∧
    canApplyStatus mon status moveNone abNone state then applyStatusTo state b.sideIdx status
  else state

def bandLate (weather : Int32) (luck : ResidualLuck) (state : BattleState) (b : Battler) :
    FallibleTurn BattleState := do
  let state ← ofTurn (harvest weather (luckFor luck b.sideIdx) (state.rewrite b speedBoost) b)
  let state ← moody (luckFor luck b.sideIdx) state b
  pure (orb itemToxicOrb statusToxic (orb itemFlameOrb statusBurn (badDreams state b) b) b)

def stickyBarb (state : BattleState) (b : Battler) : Bool × BattleState :=
  let mon := b.mon state
  if mon.item = itemStickyBarb ∧ mon.ability ≠ abMagicGuard then residualDamage true 8 state b
  else (false, state)

def octolock (state : BattleState) (b : Battler) : BattleState :=
  if hasTimedVolatile (b.mon state) veOctolock then
    let lowered := (changeStatStage state b.sideIdx 1 (-1) false false false).2
    (changeStatStage lowered b.sideIdx 3 (-1) false false false).2
  else state

def nightmare (state : BattleState) (b : Battler) : Bool × BattleState :=
  let mon := b.mon state
  if hasTimedVolatile mon veNightmare ∧ mon.status = statusSleep ∧ mon.ability ≠ abMagicGuard then
    residualDamage false 4 state b
  else (false, state)

def wakeUp (mon : PokemonState) : PokemonState :=
  if hasTimedVolatile mon veNightmare ∧ mon.status ≠ statusSleep then
    { mon with timedVolatiles := mon.timedVolatiles.filter (·.effect != veNightmare) }
  else mon

def curse (state : BattleState) (b : Battler) : Bool × BattleState :=
  let mon := b.mon state
  if hasVolatile mon volatileCursed ∧ mon.ability ≠ abMagicGuard then residualDamage false 4 state b
  else (false, state)

def inflictorGone (state : BattleState) (oppIdx : Int) (sourceTeamIdx : Int32) : Bool :=
  ((state.side oppIdx).mon sourceTeamIdx).fainted ||
    !(state.side oppIdx).activeIndices.toList.contains sourceTeamIdx

def binder (state : BattleState) (b : Battler) : PokemonState :=
  let side := state.side b.oppIdx
  let lead := side.mon (activeIdx state b.oppIdx 0)
  match veValue (b.mon state) veBoundSourceSlot with
  | some slot =>
    let idx := side.activeIndices.toList.getD slot.toInt.toNat 0
    if slot.toInt < side.activeIndices.toList.length ∧ ¬ (side.mon idx).fainted then side.mon idx
    else lead
  | none => lead

/-- A binding ticks on its last turn too, unless the mon that binds has left. -/
def bound (state : BattleState) (b : Battler) : Bool × BattleState :=
  let mon := b.mon state
  let ticks := (veValue mon veBound).any fun turns => decide (turns ≥ 1)
  let gone := (veValue mon veBoundSourceId).any (inflictorGone state b.oppIdx)
  if ticks ∧ mon.ability ≠ abMagicGuard ∧ ¬ gone then
    residualDamage false (if (binder state b).item = itemBindingBand then 6 else 8) state b
  else (false, state)

def bandLateDamage (state : BattleState) (b : Battler) : Turn BattleState :=
  let barbed := stickyBarb state b
  let slept := unlessFallen barbed fun state => nightmare (octolock state b) b
  let cursed := unlessFallen slept fun state => curse (state.rewrite b wakeUp) b
  thenBerry (unlessFallen cursed fun state => bound state b) b

end Bands

section Ticks

structure TickState where
  mon : PokemonState
  kept : List TimedVolatile := []
  perishFaint : Bool := false

def untickedEffects : List Int32 :=
  [veLeechSeedSourceSlot, veBoundSourceSlot, veBoundSourceId, veTrappedSourceId, veChargingMove]

def clearVolatile (bit : Int32) (mon : PokemonState) : PokemonState :=
  { mon with volatiles := mon.volatiles &&& ~~~bit }

def unlockMove (mon : PokemonState) : PokemonState :=
  { clearVolatile volatileLockedMove mon with lockedSlot := -1 }

def confuse (mon : PokemonState) : PokemonState :=
  { mon with volatiles := mon.volatiles ||| volatileConfused }

def retype (types : List Int32) (mon : PokemonState) : PokemonState :=
  { mon with types := InlineVec.empty.append types, hasTypes := true }

/-- A Flying mon that roosted takes its type back in its place, and loses the Normal type that stood
in for it. -/
def endRoost (base : List Int32) (mon : PokemonState) : PokemonState :=
  if base.contains typeFlying ∧ ¬ hasType mon typeFlying then
    if base.length = 1 then retype [typeFlying] mon
    else
      let restored := mon.types.toList.insertIdx (base.idxOf typeFlying) typeFlying
      retype (restored.filter fun t => t != typeNormal || base.contains typeNormal) mon
  else mon

def expire (rules : ResidualRules) (state : BattleState) (effect : Int32) (t : TickState) :
    Except String TickState :=
  if effect = veTaunt then .ok { t with mon := clearVolatile volatileTauntActive t.mon }
  else if effect = veEncore then
    .ok { t with mon := { clearVolatile volatileEncoreActive t.mon with lockedSlot := -1 } }
  else if effect = vePerishSong then .ok { t with perishFaint := true }
  else if effect = veRampaging then
    .ok { t with
      mon := if t.mon.status = statusSleep then unlockMove t.mon else confuse (unlockMove t.mon) }
  else if effect = veRoost then do
    let base ← cppSpeciesTypes rules t.mon.species
    pure { t with mon := endRoost base t.mon }
  else if effect = veDrowsy ∧ canApplyStatus t.mon statusSleep moveNone abNone state then
    .ok { t with mon := { t.mon with status := statusSleep } }
  else .ok t

def keep (tv : TimedVolatile) (t : TickState) : TickState := { t with kept := t.kept ++ [tv] }

def tick (rules : ResidualRules) (state : BattleState) (t : TickState) (tv : TimedVolatile) :
    Except String TickState :=
  if tv.turns < 0 ∨ untickedEffects.contains tv.effect then .ok (keep tv t)
  else if tv.effect = veRampaging ∧ t.mon.status = statusSleep then
    .ok { t with mon := unlockMove t.mon }
  else
    let newTurns := tv.turns.toInt - 1
    if newTurns > 0 then .ok (keep ⟨tv.effect, Int32.ofInt newTurns⟩ t)
    else expire rules state tv.effect t

def dropOrphans (kept : List TimedVolatile) : List TimedVolatile :=
  if kept.any (·.effect == veBound) then kept
  else kept.filter fun tv => tv.effect != veBoundSourceSlot && tv.effect != veBoundSourceId

def ticked (t : TickState) : PokemonState :=
  { t.mon with timedVolatiles := InlineVec.empty.append (dropOrphans t.kept) }

def perish (mon : PokemonState) : PokemonState := { mon with fainted := true, hp := 0 }

def resTickTimedVolatiles (rules : ResidualRules) (state : BattleState) (b : Battler) :
    Except String BattleState := do
  let mon := b.mon state
  let t ← mon.timedVolatiles.toList.foldlM (tick rules state) { mon := mon }
  if t.perishFaint then
    pure (cppReleaseInflictedTraps (state.rewrite b fun _ => perish (ticked t)) b.sideIdx b.teamIdx)
  else pure (state.rewrite b fun _ => ticked t)

end Ticks

section Phase

def endTurnCounters (initiated : Bool) (mon : PokemonState) : PokemonState :=
  { mon with
    turnsInBattle := if initiated then mon.turnsInBattle + 1 else mon.turnsInBattle
    tookDamageThisTurn := false
    hadStatLoweredThisTurn := false
    hadStatRaisedThisTurn := false
    lastPhysicalDamageTaken := 0
    lastSpecialDamageTaken := 0
    lastDamageTaken := 0
    suckerPunchLastTurn := false }

def isInitiator (ctx : ResidualCtx) (b : Battler) : Bool :=
  !ctx.ctxPresent || ctx.turnStartActiveNull || ctx.turnStartActive.contains (b.sideIdx, b.teamIdx)

def slots (state : BattleState) : List (Int × Nat) :=
  (List.range state.side0.activeIndices.toList.length).map (fun slot => (0, slot)) ++
    (List.range state.side1.activeIndices.toList.length).map (fun slot => (1, slot))

def battlerAt (state : BattleState) (slot : Int × Nat) : Battler :=
  ⟨slot.1, activeIdx state slot.1 slot.2⟩

def startResiduals (ctx : ResidualCtx) (state : BattleState) (slot : Int × Nat) : BattleState :=
  let b := battlerAt state slot
  if (b.mon state).fainted then state
  else
    let state := state.rewrite b (endTurnCounters (isInitiator ctx b))
    let saved := activeIdx state b.sideIdx 0
    let state := setLead state b.sideIdx b.teamIdx
    let state := (checkStatusBerry state b.sideIdx b.oppIdx).2
    let state := checkConfusionBerry state b.sideIdx b.oppIdx
    setLead state b.sideIdx saved

inductive Band
  | weather
  | grassyTerrain
  | statusCure
  | itemHeal
  | aquaRing
  | ingrain
  | leechSeed
  | poison
  | burn
  | late
  | lateDamage
  | tickTimedVolatiles
deriving DecidableEq

/-- The chain of a battler, in order. -/
def Band.all : List Band :=
  [weather, grassyTerrain, statusCure, itemHeal, aquaRing, ingrain, leechSeed, poison, burn, late,
    lateDamage, tickTimedVolatiles]

/-- What the whole phase reads. -/
structure ResidualEnv where
  rules : ResidualRules
  luck : ResidualLuck

def runBand (E : ResidualEnv) (weather : Int32) (b : Battler) (state : BattleState) (band : Band) :
    FallibleTurn BattleState :=
  if (b.mon state).fainted then pure state
  else
    match band with
    | .weather => pure (bandWeather weather state b)
    | .grassyTerrain => pure (bandGrassyTerrain state b)
    | .statusCure => ofTurn (bandStatusCure weather E.luck state b)
    | .itemHeal => pure (bandItemHeal state b)
    | .aquaRing => pure (bandAquaRing state b)
    | .ingrain => pure (bandIngrain state b)
    | .leechSeed => pure (bandLeechSeed state b)
    | .poison => ofTurn (bandPoison state b)
    | .burn => ofTurn (bandBurn state b)
    | .late => bandLate weather E.luck state b
    | .lateDamage => ofTurn (bandLateDamage state b)
    | .tickTimedVolatiles => ofExcept (resTickTimedVolatiles E.rules state b)

def emergencyExitCheck (state : BattleState) (b : Battler) (hpBefore : Int)
    (pending : List PendingSwitch) : List PendingSwitch :=
  let mon := b.mon state
  let half := mon.maxHp.toInt.tdiv 2
  if (mon.ability = abEmergencyExit ∨ mon.ability = abWimpOut) ∧ 0 < mon.hp.toInt ∧
    hpBefore > half ∧ half ≥ mon.hp.toInt ∧ hasBench (state.side b.sideIdx) then
    pending ++ [⟨b.sideIdx, "emergency_exit"⟩]
  else pending

structure Phase where
  state : BattleState
  expParticipants : ExpParticipants
  pending : List PendingSwitch

def flushSlot (E : ResidualEnv) (allowFaintedWinners : Bool) (flushed : BattleState × ExpParticipants)
    (teamIdx : Int32) : FallibleTurn (BattleState × ExpParticipants) :=
  let opp := flushed.1.side1
  if 0 ≤ teamIdx.toInt ∧ teamIdx.toInt < opp.team.toList.length ∧ (opp.mon teamIdx).fainted then do
    let rewarded ← ofExcept (cppDistributeExp E.rules.species E.rules.pow flushed.1 teamIdx flushed.2
      allowFaintedWinners)
    pure (rewarded.1, rewarded.2.1)
  else pure flushed

def cppFlushOpponentFaintExp (E : ResidualEnv) (allowFaintedWinners : Bool)
    (flushed : BattleState × ExpParticipants) : FallibleTurn (BattleState × ExpParticipants) :=
  flushed.1.side1.activeIndices.toList.foldlM (flushSlot E allowFaintedWinners) flushed

def battlerOrder (state : BattleState) : List (Int × Nat) :=
  let speed (slot : Int × Nat) := getSpeed ((battlerAt state slot).mon state)
  (slots state).insertionSort fun x y =>
    speed x > speed y ∨ (speed x = speed y ∧ x.1 ≤ y.1)

/-- One battler: its chain with the battler in front, then the experience. Whoever has fainted
before has no chain. -/
def battlerTurn (E : ResidualEnv) (weather : Int32) (hpBefore : Int × Nat → Int) (phase : Phase)
    (slot : Int × Nat) : FallibleTurn Phase :=
  let b := battlerAt phase.state slot
  if (b.mon phase.state).fainted then pure phase
  else do
    let saved := activeIdx phase.state b.sideIdx 0
    let state ← Band.all.foldlM (runBand E weather b) (setLead phase.state b.sideIdx b.teamIdx)
    let pending :=
      if (b.mon state).fainted then phase.pending
      else emergencyExitCheck state b (hpBefore slot) phase.pending
    let flushed ← cppFlushOpponentFaintExp E true
      (setLead state b.sideIdx saved, phase.expParticipants)
    pure ⟨flushed.1, flushed.2, pending⟩

def slotTarget (state : BattleState) (sideIdx : Int) (slot : Int32) : Battler :=
  let actives := (state.side sideIdx).activeIndices.toList
  ⟨sideIdx, activeIdx state sideIdx (min slot.toInt (actives.length - 1)).toNat⟩

def wishHeal (amount : Int) (mon : PokemonState) : PokemonState :=
  if mon.fainted then mon else heal amount mon

def endWish (side : SideState) : SideState :=
  { side with hasWishPending := false, wishTurns := 0, wishHp := 0, wishSlot := 0 }

def applyWish (state : BattleState) (sideIdx : Int) : BattleState :=
  let side := state.side sideIdx
  if ¬ side.hasWishPending then state
  else
    let turnsLeft := side.wishTurns.toInt - 1
    if turnsLeft ≤ 0 then
      let state := state.rewrite (slotTarget state sideIdx side.wishSlot)
        (wishHeal side.wishHp.toInt)
      state.setSide sideIdx (endWish (state.side sideIdx))
    else state.setSide sideIdx { side with wishTurns := Int8.ofInt turnsLeft }

def endFutureSight (side : SideState) : SideState :=
  { side with
    hasFutureSightPending := false, fsTurns := 0, fsDamage := 0, fsMove := 0, fsTargetSlot := 0 }

def strikeTarget (E : ResidualEnv) (state : BattleState) (target : Battler) (damage : Int) :
    Turn BattleState :=
  if (target.mon state).fainted then pure state
  else do
    let saved := activeIdx state target.sideIdx 0
    let hit ← applyDamageFs (setLead state target.sideIdx target.teamIdx) target.sideIdx damage
      (luckFor E.luck target.sideIdx).toMoveExecLuck target.oppIdx
    pure (setLead hit target.sideIdx saved)

def applyFutureSight (E : ResidualEnv) (state : BattleState) (sideIdx : Int) : Turn BattleState :=
  let side := state.side sideIdx
  if ¬ side.hasFutureSightPending then pure state
  else
    let turnsLeft := side.fsTurns.toInt - 1
    if turnsLeft ≤ 0 then do
      let state ← strikeTarget E state (slotTarget state sideIdx side.fsTargetSlot)
        side.fsDamage.toInt
      pure (state.setSide sideIdx (endFutureSight (state.side sideIdx)))
    else pure (state.setSide sideIdx { side with fsTurns := Int8.ofInt turnsLeft })

inductive Delayed
  | wish (sideIdx : Int)
  | futureSight (sideIdx : Int)
deriving DecidableEq

def Delayed.all : List Delayed := [wish 0, wish 1, futureSight 0, futureSight 1]

def runDelayed (E : ResidualEnv) (state : BattleState) : Delayed → FallibleTurn BattleState
  | .wish sideIdx => pure (applyWish state sideIdx)
  | .futureSight sideIdx => ofTurn (applyFutureSight E state sideIdx)

def beforeChains (ctx : ResidualCtx) (state : BattleState) : BattleState :=
  (slots state).foldl (startResiduals ctx) state

def hpBefore (start : BattleState) (slot : Int × Nat) : Int :=
  let mon := (battlerAt start slot).mon start
  if mon.fainted then 0 else mon.hp.toInt

def chains (E : ResidualEnv) (ctx : ResidualCtx) (state : BattleState)
    (pending : List PendingSwitch) : FallibleTurn Phase :=
  let start := beforeChains ctx state
  (battlerOrder start).foldlM (battlerTurn E (effectiveWeather start) (hpBefore start))
    ⟨start, ctx.expParticipants, pending⟩

def cppApplyResiduals (E : ResidualEnv) (ctx : ResidualCtx) (state : BattleState)
    (pending : List PendingSwitch) : FallibleTurn (BattleState × List PendingSwitch) := do
  let phase ← chains E ctx state pending
  let state ← Delayed.all.foldlM (runDelayed E) phase.state
  let flushed ← cppFlushOpponentFaintExp E false (state, phase.expParticipants)
  pure (flushed.1, phase.pending)

end Phase

end Engine

end NuzlockeSolver
