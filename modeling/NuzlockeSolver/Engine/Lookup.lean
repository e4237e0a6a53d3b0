import Mathlib.Data.Rat.Floor
import NuzlockeSolver.Engine.Consts

/-!
# Looking things up in a battle

Sides and team members, conditions and volatiles, the effective weather, grounding, and stats with
their stages. Machine integers are read as integers where arithmetic is done on them.
-/

namespace NuzlockeSolver

namespace Engine

instance : Inhabited PokemonState := ⟨{}⟩

def BattleState.side (state : BattleState) (i : Int) : SideState :=
  if i = 0 then state.side0 else state.side1

def SideState.mon (side : SideState) (idx : Int32) : PokemonState :=
  side.team.toList.getD idx.toInt.toNat default

def hasPseudoWeather (state : BattleState) (pw : Int32) : Bool :=
  state.pseudoWeather.toList.any (·.effect == pw)

def hasTimedVolatile (mon : PokemonState) (ve : Int32) : Bool :=
  mon.timedVolatiles.toList.any (·.effect == ve)

def hasSideCondition (side : SideState) (cond : Int32) : Bool :=
  side.sideConditions.toList.any (·.condition == cond)

def hasType (mon : PokemonState) (t : Int32) : Bool := mon.types.toList.any (· == t)

def isMoldBreaker (ability : Int32) : Bool := moldBreakerAbilities.contains ability

def activeMons (state : BattleState) : List PokemonState :=
  state.side0.activeIndices.toList.map state.side0.mon ++
    state.side1.activeIndices.toList.map state.side1.mon

def effectiveWeather (state : BattleState) : Int32 :=
  if (activeMons state).any fun m =>
    !m.fainted && (m.ability == abAirLock || m.ability == abCloudNine) then weatherNone
  else state.weather

def isGrounded (mon : PokemonState) (state : BattleState) : Bool :=
  if hasPseudoWeather state pwGravity then true
  else if mon.item == itemIronBall then true
  else if hasTimedVolatile mon veGrounded then true
  else if hasType mon typeFlying then false
  else if mon.ability == abLevitate then false
  else if mon.item == itemAirBalloon then false
  else if hasTimedVolatile mon veMagnetRise then false
  else if hasTimedVolatile mon veTelekinesis then false
  else true

def truncate (q : ℚ) : Int := if 0 ≤ q then ⌊q⌋ else ⌈q⌉

def stageTable : List ℚ :=
  [2 / 8, 2 / 7, 2 / 6, 2 / 5, 2 / 4, 2 / 3, 1, 3 / 2, 4 / 2, 5 / 2, 6 / 2, 7 / 2, 8 / 2]

def stageMultiplier (stage : Int) : ℚ := stageTable.getD (stage + 6).toNat (8 / 2)

def getStage (mon : PokemonState) : Int → Int
  | 0 => mon.stage0.toInt
  | 1 => mon.stage1.toInt
  | 2 => mon.stage2.toInt
  | 3 => mon.stage3.toInt
  | 4 => mon.stage4.toInt
  | _ => 0

def stageIdxForStat : Nat → Int
  | 1 => 0
  | 2 => 1
  | 3 => 2
  | 4 => 3
  | 5 => 4
  | _ => -1

def getStat (mon : PokemonState) : Nat → Int
  | 1 => mon.statAtk.toInt
  | 2 => mon.statDef.toInt
  | 3 => mon.statSpa.toInt
  | 4 => mon.statSpd.toInt
  | 5 => mon.statSpe.toInt
  | _ => mon.statHp.toInt

def stagedStat (base stage : Int) : Int := max 1 (truncate (base * stageMultiplier stage))

def effectiveStat (mon : PokemonState) (statIdx : Nat) (isCrit : Bool) : Int :=
  let stage := getStage mon (stageIdxForStat statIdx)
  let stage :=
    if isCrit then
      if statIdx = 1 ∨ statIdx = 3 then max stage 0
      else if statIdx = 2 ∨ statIdx = 4 then min stage 0
      else stage
    else stage
  stagedStat (getStat mon statIdx) stage

end Engine

end NuzlockeSolver
