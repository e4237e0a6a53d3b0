import Mathlib.Data.Rat.Defs

/-!
# The battle state of the engine

The engine's plain-data state, field by field. Enumerations are raw 32-bit integers; an optional
value is a presence flag and a value. Vectors have a fixed capacity, beyond which a push aborts.
`weight_kg_reduced` is a finite double, taken as a rational.
-/

namespace NuzlockeSolver

namespace Engine

/-- A vector of at most `cap` elements. -/
structure InlineVec (α : Type) (cap : Nat) where
  toList : List α
  size_le : toList.length ≤ cap
deriving DecidableEq

namespace InlineVec

variable {α : Type} {cap : Nat}

def empty : InlineVec α cap := ⟨[], Nat.zero_le cap⟩

instance : Inhabited (InlineVec α cap) := ⟨empty⟩

def pushBack (v : InlineVec α cap) (a : α) : Option (InlineVec α cap) :=
  if h : v.toList.length < cap then
    some ⟨v.toList ++ [a], by rw [List.length_append, List.length_singleton]; exact h⟩
  else none

def map {β : Type} (g : α → β) (v : InlineVec α cap) : InlineVec β cap :=
  ⟨v.toList.map g, by rw [List.length_map]; exact v.size_le⟩

theorem ext {v w : InlineVec α cap} (h : v.toList = w.toList) : v = w := by
  cases v
  cases w
  cases h
  rfl

end InlineVec

structure TimedVolatile where
  effect : Int32 := 0
  turns : Int32 := 0
deriving DecidableEq

abbrev pokemonTypesCap : Nat := 3

abbrev pokemonTimedVolatilesCap : Nat := 32

structure PokemonState where
  species : Int32 := 0
  nature : Int32 := 0
  ivHp : Int32 := 0
  ivAtk : Int32 := 0
  ivDef : Int32 := 0
  ivSpa : Int32 := 0
  ivSpd : Int32 := 0
  ivSpe : Int32 := 0
  gender : Int32 := 0
  level : Int32 := 50
  exp : Int32 := 0
  ability : Int32 := 0
  item : Int32 := 0
  status : Int32 := 0
  moveId0 : Int32 := 0
  moveId1 : Int32 := 0
  moveId2 : Int32 := 0
  moveId3 : Int32 := 0
  movePp0 : Int32 := 0
  movePp1 : Int32 := 0
  movePp2 : Int32 := 0
  movePp3 : Int32 := 0
  hasStats : Bool := false
  statHp : Int32 := 0
  statAtk : Int32 := 0
  statDef : Int32 := 0
  statSpa : Int32 := 0
  statSpd : Int32 := 0
  statSpe : Int32 := 0
  hasMaxHp : Bool := false
  maxHp : Int32 := 0
  hasHp : Bool := false
  hp : Int32 := 0
  hasTypes : Bool := false
  types : InlineVec Int32 pokemonTypesCap := .empty
  stage0 : Int32 := 0
  stage1 : Int32 := 0
  stage2 : Int32 := 0
  stage3 : Int32 := 0
  stage4 : Int32 := 0
  stage5 : Int32 := 0
  stage6 : Int32 := 0
  volatiles : Int32 := 0
  timedVolatiles : InlineVec TimedVolatile pokemonTimedVolatilesCap := .empty
  turnsInBattle : Int32 := 0
  toxicTurns : Int32 := 0
  sleepTurns : Int32 := 0
  confusionTurns : Int32 := 0
  isRestSleep : Bool := false
  lockedSlot : Int32 := -1
  chargingMoveSlot : Int32 := -1
  subHp : Int32 := 0
  lastUsedSlot : Int32 := -1
  fainted : Bool := false
  hasActed : Bool := false
  critStage : Int32 := 0
  metronomeCount : Int32 := 0
  metronomeLastMove : Int32 := -1
  mirrorMoveLastMove : Int32 := -1
  consumedBerry : Int32 := 0
  tookDamageThisTurn : Bool := false
  hadStatLoweredThisTurn : Bool := false
  hadStatRaisedThisTurn : Bool := false
  lastMoveFailed : Bool := false
  lastPhysicalDamageTaken : Int32 := 0
  lastSpecialDamageTaken : Int32 := 0
  lastDamageTaken : Int32 := 0
  suckerPunchLastTurn : Bool := false
  baseAbility : Int32 := 0
  savedAbility : Int32 := 0
  isMega : Bool := false
  movesUsed : Int32 := 0
  rolloutHits : Int32 := 0
  defenseCurlUsed : Bool := false
  weightKgReduced : ℚ := 0
  protectCounter : Int32 := 0
  stockpileCount : Int32 := 0
  stockpileDefBoost : Int32 := 0
  stockpileSpdBoost : Int32 := 0

structure SideConditionEntry where
  condition : Int32 := 0
  turns : Int8 := 0
deriving DecidableEq

abbrev sideTeamCap : Nat := 6

abbrev sideActiveCap : Nat := 2

abbrev sideConditionsCap : Nat := 16

abbrev sideImprisonedMovesCap : Nat := 8

structure BatonPassData where
  stage0 : Int32 := 0
  stage1 : Int32 := 0
  stage2 : Int32 := 0
  stage3 : Int32 := 0
  stage4 : Int32 := 0
  stage5 : Int32 := 0
  stage6 : Int32 := 0
  volatilesBitmask : Int32 := 0
  critStage : Int32 := 0
  subHp : Int32 := 0
  timedVolatiles : InlineVec TimedVolatile pokemonTimedVolatilesCap := .empty
deriving DecidableEq

def firstActive : InlineVec Int32 sideActiveCap := ⟨[0], by decide⟩

def loneTeam (m : PokemonState) : InlineVec PokemonState sideTeamCap :=
  ⟨[m], Nat.succ_le_of_lt (Nat.zero_lt_succ 5)⟩

structure SideState where
  team : InlineVec PokemonState sideTeamCap := .empty
  format : Int32 := 0
  activeIndices : InlineVec Int32 sideActiveCap := .empty
  sideConditions : InlineVec SideConditionEntry sideConditionsCap := .empty
  megaUsed : Bool := false
  hasBatonPassData : Bool := false
  batonPassData : BatonPassData := {}
  allyFaintedLastTurn : Bool := false
  hasWishPending : Bool := false
  wishTurns : Int8 := 0
  wishHp : Int32 := 0
  wishSlot : Int32 := 0
  hasFutureSightPending : Bool := false
  fsTurns : Int8 := 0
  fsDamage : Int32 := 0
  fsMove : Int32 := 0
  fsTargetSlot : Int32 := 0
  imprisonedMoves : InlineVec Int32 sideImprisonedMovesCap := .empty
  redirectTarget : Int32 := -1
  redirectIsRagePowder : Bool := false

structure PseudoWeatherEntry where
  effect : Int32 := 0
  turns : Int8 := 0
deriving DecidableEq

abbrev battlePseudoWeatherCap : Nat := 8

abbrev battleTurnOrderCap : Nat := 4

abbrev battleExpParticipantOuterCap : Nat := sideTeamCap

abbrev battleExpParticipantInnerCap : Nat := sideTeamCap

structure ExpParticipantSet where
  members : InlineVec Int32 battleExpParticipantInnerCap := .empty
deriving DecidableEq

structure BattleState where
  side0 : SideState := {}
  side1 : SideState := {}
  weather : Int32 := 0
  weatherTurns : Int8 := 0
  terrain : Int32 := 0
  terrainTurns : Int8 := 0
  pseudoWeather : InlineVec PseudoWeatherEntry battlePseudoWeatherCap := .empty
  turnNumber : Int32 := 1
  echoedVoiceMultiplier : Int32 := 0
  echoedVoiceUsedThisTurn : Bool := false
  battleLastMove : Int32 := -1
  format : Int32 := 0
  turnOrder : InlineVec Int32 battleTurnOrderCap := .empty
  prevTurnOrder : InlineVec Int32 battleTurnOrderCap := .empty
  isTrainerBattle : Bool := true
  hasLevelCap : Bool := false
  levelCap : Int32 := 0
  expParticipants : InlineVec ExpParticipantSet battleExpParticipantOuterCap := .empty

/-- The order in which the code keeps its set-valued fields. -/
def sortedSet {cap : Nat} (v : InlineVec Int32 cap) : Bool :=
  v.toList.Pairwise (· ≤ ·)

end Engine

end NuzlockeSolver
