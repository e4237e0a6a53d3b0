import NuzlockeSolver.Engine.Effects
import NuzlockeSolver.Engine.Lookup

/-!
# The end of a turn on the field

The volatiles that last one turn are cleared, and the weather, the terrain, the side conditions and
the pseudo weathers count down. What is set for so many turns is there through the last of them.
-/

namespace NuzlockeSolver

namespace Engine

section Model

def volatilesOfOneTurn : Int32 := 64 ||| 2097152 ||| 33554432

def InlineVec.filterMap {α β : Type} {cap : Nat} (f : α → Option β) (v : InlineVec α cap) :
    InlineVec β cap :=
  ⟨v.toList.filterMap f, (List.length_filterMap_le f v.toList).trans v.size_le⟩

def clearOneTurn (mon : PokemonState) : PokemonState :=
  { mon with volatiles := mon.volatiles &&& ~~~volatilesOfOneTurn }

def clearSide (side : SideState) : SideState :=
  { side with redirectTarget := -1, team := side.team.map clearOneTurn }

def cppApplyEotVolatileClear (state : BattleState) : BattleState :=
  { state with
    side0 := clearSide state.side0
    side1 := clearSide state.side1
    echoedVoiceMultiplier :=
      if state.echoedVoiceUsedThisTurn then min 4 (state.echoedVoiceMultiplier + 1) else 0
    echoedVoiceUsedThisTurn := false }

/-- One turn less; minus one stands for no limit. -/
def countDown (turns : Int8) : Option Int8 :=
  if turns = -1 then some turns else if 1 < turns then some (turns - 1) else none

def tickSideCondition (e : SideConditionEntry) : Option SideConditionEntry :=
  (countDown e.turns).map fun turns => { e with turns }

def tickPseudoWeather (e : PseudoWeatherEntry) : Option PseudoWeatherEntry :=
  (countDown e.turns).map fun turns => { e with turns }

def tickConditions (side : SideState) : SideState :=
  { side with sideConditions := side.sideConditions.filterMap tickSideCondition }

def cppApplyEotWeatherTerrain (state : BattleState) : BattleState :=
  let weatherTurns := state.weatherTurns.toInt - 1
  let (weather, weatherTurns) :=
    if state.weather = weatherNone ∨ state.weatherTurns = -1 then
      (state.weather, state.weatherTurns)
    else if weatherTurns ≤ 0 then (weatherNone, 0)
    else (state.weather, Int8.ofInt weatherTurns)
  let terrainTurns := state.terrainTurns.toInt - 1
  let (terrain, terrainTurns) :=
    if state.terrain = terrainNone ∨ state.terrainTurns = -1 then
      (state.terrain, state.terrainTurns)
    else (if terrainTurns ≤ 0 then terrainNone else state.terrain, Int8.ofInt terrainTurns)
  { state with
    weather, weatherTurns, terrain, terrainTurns
    side0 := tickConditions state.side0
    side1 := tickConditions state.side1
    pseudoWeather := state.pseudoWeather.filterMap tickPseudoWeather }

end Model

end Engine

end NuzlockeSolver
