import Mathlib.Data.List.Dedup
import Mathlib.Data.List.Sort
import NuzlockeSolver.Basic
import NuzlockeSolver.Engine.Effects

/-!
# Experience

`exp.cpp`: growth curves, the recalculated stats of a level, one gain with its level-ups and its two
clamps, and the distribution over the participants of a knock-out. The species table is a
parameter, and so is `pow`, the library's power of five halves; the remaining arithmetic on doubles
is taken as exact.
-/

namespace NuzlockeSolver

namespace Engine

section Curve

inductive GrowthRate
  | mediumFast
  | erratic
  | fluctuating
  | mediumSlow
  | fast
  | slow
deriving DecidableEq, Repr

def GrowthRate.all : List GrowthRate := [mediumFast, erratic, fluctuating, mediumSlow, fast, slow]

def cppExpForLevel (growthRate : GrowthRate) (n : Int) : Int :=
  let n3 := n * n * n
  let result := match growthRate with
    | .mediumFast => n3
    | .erratic =>
      if n ≤ 50 then ((100 - n) * n3).tdiv 50
      else if n ≤ 68 then ((150 - n) * n3).tdiv 100
      else if n ≤ 98 then ((1911 - 10 * n).tdiv 3 * n3).tdiv 500
      else ((160 - n) * n3).tdiv 100
    | .fluctuating =>
      if n < 15 then (((n + 1).tdiv 3 + 24) * n3).tdiv 50
      else if n ≤ 36 then ((n + 14) * n3).tdiv 50
      else ((n.tdiv 2 + 32) * n3).tdiv 50
    | .mediumSlow => (6 * n3).tdiv 5 - 15 * n * n + 100 * n - 140
    | .fast => (4 * n3).tdiv 5
    | .slow => (5 * n3).tdiv 4
  max 0 result

end Curve

section Stats

structure SpeciesExpData where
  baseHp : Int32
  baseAtk : Int32
  baseDef : Int32
  baseSpa : Int32
  baseSpd : Int32
  baseSpe : Int32
  growthRate : GrowthRate
  expYield : Int32

/-- The species table; a species outside it is an error. -/
abbrev SpeciesTable := Int32 → Option SpeciesExpData

def cppSpeciesExpData (species : SpeciesTable) (speciesId : Int32) :
    Except String SpeciesExpData :=
  match species speciesId with
  | some data => .ok data
  | none => .error ("cpp_species_exp_data: id " ++ toString speciesId.toInt ++ " not found")

def speciesShedinja : Int32 := 292

def natureTable : List (Int × Int) :=
  [(-1, -1), (1, 2), (1, 5), (1, 3), (1, 4), (2, 1), (-1, -1), (2, 5), (2, 3), (2, 4), (5, 1),
    (5, 2), (-1, -1), (5, 3), (5, 4), (3, 1), (3, 2), (3, 5), (-1, -1), (3, 4), (4, 1), (4, 2),
    (4, 5), (4, 3), (-1, -1)]

def scaledStat (base iv level : Int32) : Int :=
  ⌊(((2 * base.toInt + iv.toInt : Int) : ℚ) * level.toInt / 100)⌋

def hpStat (base iv level : Int32) : Int32 :=
  Int32.ofInt (scaledStat base iv level + level.toInt + 10)

def computeStat (statIdx : Nat) (base iv nature level : Int32) : Except String Int32 :=
  if statIdx = 0 then .ok (hpStat base iv level)
  else
    let intermediate := scaledStat base iv level + 5
    if nature < 0 ∨ nature > 24 then
      .error ("compute_stat: invalid nature_idx " ++ toString nature.toInt)
    else
      let nat := natureTable.getD nature.toInt.toNat (-1, -1)
      if nat.1 = statIdx then .ok (Int32.ofInt ⌊(intermediate : ℚ) * (11 / 10)⌋)
      else if nat.2 = statIdx then .ok (Int32.ofInt ⌊(intermediate : ℚ) * (9 / 10)⌋)
      else .ok (Int32.ofInt intermediate)

def recalcMaxHp (data : SpeciesExpData) (mon : PokemonState) (level : Int32) : Int32 :=
  if mon.species = speciesShedinja then 1 else hpStat data.baseHp mon.ivHp level

def recalcHp (data : SpeciesExpData) (mon : PokemonState) : Int :=
  let newMaxHp := (recalcMaxHp data mon mon.level).toInt
  if mon.species = speciesShedinja then min 1 mon.hp.toInt
  else min newMaxHp (mon.hp.toInt + (newMaxHp - mon.maxHp.toInt))

def cppRecalcStats (species : SpeciesTable) (mon : PokemonState) : Except String PokemonState := do
  let sp ← cppSpeciesExpData species mon.species
  let atk ← computeStat 1 sp.baseAtk mon.ivAtk mon.nature mon.level
  let dfs ← computeStat 2 sp.baseDef mon.ivDef mon.nature mon.level
  let spa ← computeStat 3 sp.baseSpa mon.ivSpa mon.nature mon.level
  let spd ← computeStat 4 sp.baseSpd mon.ivSpd mon.nature mon.level
  let spe ← computeStat 5 sp.baseSpe mon.ivSpe mon.nature mon.level
  pure
    { mon with
      hasStats := true
      statHp := recalcMaxHp sp mon mon.level
      statAtk := atk
      statDef := dfs
      statSpa := spa
      statSpd := spd
      statSpe := spe
      hasMaxHp := true
      maxHp := recalcMaxHp sp mon mon.level
      hasHp := true
      hp := Int32.ofInt (recalcHp sp mon) }

end Stats

section Gain

abbrev LevelCap := Option Int32

def hardCap : LevelCap → Int
  | some cap => min cap.toInt 100
  | none => 100

def capReached (cap : LevelCap) (level : Int32) : Prop := ∃ c, cap = some c ∧ c ≤ level

instance (cap : LevelCap) (level : Int32) : Decidable (capReached cap level) :=
  match cap with
  | some c => decidable_of_iff (c ≤ level) (by simp [capReached])
  | none => isFalse (by simp [capReached])

def raiseLevel (mon : PokemonState) : PokemonState := { mon with level := mon.level + 1 }

def setExp (mon : PokemonState) (exp : Int) : PokemonState := { mon with exp := Int32.ofInt exp }

def levelUps (species : SpeciesTable) (growthRate : GrowthRate) (cap newExp : Int) :
    Nat → PokemonState → Except String PokemonState
  | 0, mon => .ok mon
  | n + 1, mon =>
    if mon.level.toInt < cap ∧ cppExpForLevel growthRate (mon.level.toInt + 1) ≤ newExp then do
      let mon ← cppRecalcStats species (raiseLevel mon)
      levelUps species growthRate cap newExp n mon
    else .ok mon

def cappedExp (cap : LevelCap) (growthRate : GrowthRate) (exp : Int) : Int :=
  if hardCap cap < 100 then min exp (cppExpForLevel growthRate (hardCap cap + 1) - 1) else exp

def settleExp (cap : LevelCap) (growthRate : GrowthRate) (mon : PokemonState) : PokemonState :=
  match cap with
  | some c =>
    if c ≤ mon.level then setExp mon (cppExpForLevel growthRate c.toInt) else mon
  | none => mon

def cppApplyExpGain (species : SpeciesTable) (mon : PokemonState) (expAmount : Int)
    (cap : LevelCap) (growthRate : GrowthRate) : Except String (PokemonState × Int) :=
  if expAmount ≤ 0 ∨ mon.level ≥ 100 ∨ capReached cap mon.level then .ok (mon, 0)
  else do
    let newExp := cappedExp cap growthRate (mon.exp.toInt + expAmount)
    let raised ← levelUps species growthRate (hardCap cap) newExp
      (hardCap cap - mon.level.toInt).toNat (setExp mon newExp)
    let settled := settleExp cap growthRate raised
    pure (settled, settled.exp.toInt - mon.exp.toInt)

def cppCalcExpGain (species : SpeciesTable) (pow : ℚ → ℚ)
    (faintedSpecies faintedLevel winnerLevel : Int32) : Except String Int32 := do
  let data ← cppSpeciesExpData species faintedSpecies
  let level : ℚ := faintedLevel.toInt
  let e : ℚ := ⌊(data.expYield.toInt : ℚ) * level / 5⌋
  pure (Int32.ofInt ⌊e * pow ((2 * level + 10) / (level + winnerLevel.toInt + 10)) + 1⌋)

end Gain

section Distribution

def BattleState.levelCap? (state : BattleState) : LevelCap :=
  if state.hasLevelCap then some state.levelCap else none

abbrev ExpParticipants := List (List Nat)

abbrev ExpGains := List (Nat × Int)

def sortedParticipants (participants : List Nat) : List Nat :=
  participants.dedup.insertionSort (· ≤ ·)

structure KnockOut where
  species : Int32
  level : Int32
  allowFaintedWinners : Bool

def setTeamMon (state : BattleState) (idx : Nat) (mon : PokemonState) : BattleState :=
  { state with side0 := { state.side0 with team := state.side0.team.set idx mon } }

def awardExp (species : SpeciesTable) (pow : ℚ → ℚ) (ko : KnockOut) (state : BattleState)
    (teamIdx : Nat) : Except String (BattleState × ExpGains) :=
  match state.side0.team.toList[teamIdx]? with
  | none => .ok (state, [])
  | some winner =>
    if winner.fainted ∧ ¬ ko.allowFaintedWinners then .ok (state, [])
    else do
      let expAmount ← cppCalcExpGain species pow ko.species ko.level winner.level
      let wd ← cppSpeciesExpData species winner.species
      let (mon, gained) ← cppApplyExpGain species winner expAmount.toInt state.levelCap?
        wd.growthRate
      pure (setTeamMon state teamIdx mon, [(teamIdx, gained)])

def awardAll (species : SpeciesTable) (pow : ℚ → ℚ) (ko : KnockOut) :
    List Nat → BattleState → Except String (BattleState × ExpGains)
  | [], state => .ok (state, [])
  | teamIdx :: rest, state => do
    let (state, gained) ← awardExp species pow ko state teamIdx
    let (state, gains) ← awardAll species pow ko rest state
    pure (state, gained ++ gains)

def cppDistributeExp (species : SpeciesTable) (pow : ℚ → ℚ) (state : BattleState)
    (faintedTeamIdx : Int32) (expParticipants : ExpParticipants) (allowFaintedWinners : Bool) :
    Except String (BattleState × ExpParticipants × ExpGains) :=
  match state.side1.activeIndices.toList.findIdx? (· == faintedTeamIdx) with
  | none => .ok (state, expParticipants, [])
  | some slotPos =>
    match expParticipants[slotPos]? with
    | none => .ok (state, expParticipants, [])
    | some [] => .ok (state, expParticipants, [])
    | some participants => do
      let faintedMon := state.side1.mon faintedTeamIdx
      let ko : KnockOut := ⟨faintedMon.species, faintedMon.level, allowFaintedWinners⟩
      let (state, gains) ← awardAll species pow ko (sortedParticipants participants) state
      pure (state, expParticipants.set slotPos [], gains)

end Distribution

end Engine

end NuzlockeSolver
