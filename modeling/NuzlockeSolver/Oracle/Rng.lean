import Mathlib.Algebra.Order.Field.Rat
import Mathlib.Data.Rat.Floor
import Mathlib.Data.Fin.Basic

/-!
# Category-B draws and their resolvers

Every resolver has one shape: a saturated draw is logged with probability one and takes its
fixed value; any other draw bumps the occurrence counter of its event, consults the injection
channel under that occurrence, and is logged with the probability of the outcome it took.
A `Draw` collects what a resolver is called with; each resolver is the `Draw` of its own values.

Luck is deterministic throughout (`random_mode` is off), as in the oracle.
-/

namespace NuzlockeSolver

inductive RngEvent
  | accuracy
  | crit
  | secondaryFires
  | procFires
  | damageRoll
  | psywaveRoll
  | multiHitCount
  | wake
  | confusionSnap
  | defrost
  | confusionSelfHit
  | attractImmobilize
  | fullParalysis
  | flinch
  | quickClaw
  | ancientPowerBoost
  | bindingDuration
  | rampageDuration
  | actionSelect
  | forcedSwitch
  | postFaintSwitch
  | metronomeMove
  | sleepTalkMove
  | assistMove
  | acupressureStat
  | roarTarget
  | effectSporeWhich
  | triAttackStatus
  | moodyStats
  | starfBerryStat
  | speedTie
  | speedTiebreaker
  | randomTarget
deriving DecidableEq, Repr

namespace RngEvent

def code : RngEvent → Nat
  | accuracy => 1
  | crit => 2
  | secondaryFires => 3
  | procFires => 4
  | damageRoll => 5
  | psywaveRoll => 6
  | multiHitCount => 7
  | wake => 8
  | confusionSnap => 9
  | defrost => 10
  | confusionSelfHit => 11
  | attractImmobilize => 12
  | fullParalysis => 13
  | flinch => 14
  | quickClaw => 15
  | ancientPowerBoost => 16
  | bindingDuration => 17
  | rampageDuration => 18
  | actionSelect => 19
  | forcedSwitch => 20
  | postFaintSwitch => 21
  | metronomeMove => 22
  | sleepTalkMove => 23
  | assistMove => 24
  | acupressureStat => 25
  | roarTarget => 26
  | effectSporeWhich => 27
  | triAttackStatus => 28
  | moodyStats => 29
  | starfBerryStat => 30
  | speedTie => 31
  | speedTiebreaker => 32
  | randomTarget => 33

def isCatB (e : RngEvent) : Bool :=
  (1 ≤ e.code && e.code ≤ 18) || e.code = 32 || e.code = 33

def isBool : RngEvent → Bool
  | accuracy | crit | secondaryFires | procFires | flinch | quickClaw | ancientPowerBoost
  | wake | confusionSnap | defrost | confusionSelfHit | attractImmobilize | fullParalysis => true
  | _ => false

end RngEvent

abbrev DmgByRoll := Fin 16 → Int

structure RngEntry where
  event : RngEvent
  attackerSide : Int := -1
  chosen : Int
  pChosen : Rat := -1
  options : List Int
  optionsCount : Nat
  optionsTruncated : Bool
  dmgByRoll : Option DmgByRoll := none

def analyticalRngLogDraw (event : RngEvent) (attackerSide chosen : Int) (options : List Int)
    (pChosen : Rat) : RngEntry where
  event := event
  attackerSide := attackerSide
  chosen := chosen
  pChosen := pChosen
  options := if options.length ≤ 16 then options else []
  optionsCount := options.length
  optionsTruncated := 16 < options.length

def outcomeOf (b : Bool) : Int := if b then 1 else 0

structure Draw where
  event : RngEvent
  attackerSide : Int := -1
  /-- The value of a saturated draw, resolved before the counter and the injection. -/
  saturated : Option Int := none
  logged : Bool := true
  /-- The kind of outcome the resolver accepts from the injection channel. -/
  boolean : Bool := false
  default : Int
  /-- What the log reports; the outcomes that can occur are the support. -/
  options : List Int
  support : List Int := options
  prob : Int → Rat
  dmgByRoll : Option DmgByRoll := none

namespace Draw

def entry (d : Draw) (chosen : Int) (p : Rat) : RngEntry :=
  { analyticalRngLogDraw d.event d.attackerSide chosen d.options p with dmgByRoll := d.dmgByRoll }

def entryOf (d : Draw) (chosen : Int) : RngEntry :=
  d.entry chosen (d.prob chosen)

end Draw

def bernoulli (p : Rat) (v : Int) : Rat :=
  if v = 0 then 1 - p else p

def percentDraw (event : RngEvent) (chance threshold : Rat) (side : Int) : Draw where
  event := event
  attackerSide := side
  saturated := if 100 ≤ chance then some 1 else if chance ≤ 0 then some 0 else none
  boolean := true
  default := outcomeOf (threshold ≤ chance)
  options := [0, 1]
  prob := bernoulli (chance / 100)

def rngResolveAccuracy (effAcc : Rat) (isNone : Bool) (threshold : Rat) (side : Int) : Draw :=
  if isNone then
    { percentDraw .accuracy effAcc threshold side with saturated := some 1, logged := false }
  else percentDraw .accuracy effAcc threshold side

def rngResolveCrit (critChance critThreshold : Rat) (side : Int) : Draw where
  event := .crit
  attackerSide := side
  saturated :=
    if critChance ≤ 0 then some 0
    else if critChance = 1 ∧ critThreshold ≤ 100 then some 1
    else none
  boolean := true
  default := outcomeOf (critThreshold ≤ critChance)
  options := [0, 1]
  prob := bernoulli critChance

def multiHitProb25 (hits : Int) : Rat :=
  if hits = 2 ∨ hits = 3 then 35 / 100
  else if hits = 4 ∨ hits = 5 then 15 / 100
  else -1

def intRange (lo hi : Int) : List Int :=
  (List.range (hi - lo + 1).toNat).map fun (i : Nat) => lo + i

def rngResolveMultiHit (minHits maxHits : Int) (multiHitRoll : Rat) (side : Int) : Draw where
  event := .multiHitCount
  attackerSide := side
  saturated := if minHits = maxHits then some minHits else none
  default :=
    if minHits = 2 ∧ maxHits = 5 then
      if multiHitRoll < 35 / 100 then 2
      else if multiHitRoll < 70 / 100 then 3
      else if multiHitRoll < 85 / 100 then 4
      else 5
    else ⌊minHits + multiHitRoll * (maxHits - minHits) + 1 / 2⌋
  options := if minHits = maxHits then [minHits] else [minHits, maxHits]
  support := intRange minHits maxHits
  prob := fun hits =>
    if minHits = 2 ∧ maxHits = 5 then multiHitProb25 hits
    else 1 / ((maxHits - minHits + 1 : Int) : Rat)

def rngResolveChance (chance : Int) (threshold : Rat) (event : RngEvent) (side : Int) : Draw :=
  percentDraw event chance threshold side

-- the draws made before the move carry no participants
def resolveFireHigh (chance threshold : Rat) (event : RngEvent) : Draw :=
  percentDraw event chance threshold (-1)

def resolveCanAct (chance threshold : Rat) (event : RngEvent) : Draw :=
  { percentDraw event chance threshold (-1) with
    saturated := if 100 ≤ chance then some 0 else if chance ≤ 0 then some 1 else none
    default := outcomeOf (! decide (threshold ≤ chance)) }

def confusionNoSelfHitChance : Rat := 667 / 10

def resolveConfusionSelfHit (threshold : Rat) : Draw where
  event := .confusionSelfHit
  boolean := true
  default := outcomeOf (threshold ≤ confusionNoSelfHitChance)
  options := [0, 1]
  prob := bernoulli (confusionNoSelfHitChance / 100)

def truncInt (x : Rat) : Int := x.num.tdiv x.den

def upTo (n : Nat) : List Int := (List.range n).map fun (i : Nat) => (i : Int)

def rngResolveDamageRoll (detRoll : Rat) (dmgByRoll : DmgByRoll) (side : Int) : Draw where
  event := .damageRoll
  attackerSide := side
  default := truncInt (detRoll * 15)
  options := upTo 16
  prob := fun _ => 1 / 16
  dmgByRoll := some dmgByRoll

def rngResolveConfusionSelfHitRoll (detRoll : Rat) : Draw where
  event := .damageRoll
  default := truncInt (detRoll * 15)
  options := upTo 15
  prob := fun _ => 1 / 15

def pyRound (x : Rat) : Int :=
  if Int.fract x < 1 / 2 then ⌊x⌋
  else if 1 / 2 < Int.fract x then ⌊x⌋ + 1
  else if ⌊x⌋ % 2 = 0 then ⌊x⌋
  else ⌊x⌋ + 1

def psywaveProb (k : Int) : Rat :=
  if k = 0 ∨ k = 100 then 1 / 200 else 1 / 100

def rngResolvePsywaveRollK (detRoll : Rat) : Draw where
  event := .psywaveRoll
  default := min (max (pyRound (detRoll * 100)) 0) 100
  options := upTo 101
  prob := psywaveProb

def rngResolveQuickClaw (detThreshold : Rat) : Draw where
  event := .quickClaw
  boolean := true
  default := outcomeOf (detThreshold ≤ 20)
  options := [0, 1]
  prob := bernoulli (1 / 5)

def rngResolveBindingDuration (detRoll : Rat) : Draw where
  event := .bindingDuration
  default := if 1 / 2 ≤ detRoll then 5 else 4
  options := [4, 5]
  prob := fun _ => 1 / 2

def rngResolveRampageDuration (detRoll : Rat) : Draw where
  event := .rampageDuration
  default := if 1 / 2 ≤ detRoll then 3 else 2
  options := [2, 3]
  prob := fun _ => 1 / 2

inductive Ability
  | magmaArmor
  | battleArmor
  | shellArmor
  | superLuck
  | moldBreaker
  | teravolt
  | turboblaze
  | other
deriving DecidableEq, Repr

inductive HeldItem
  | scopeLens
  | expertBelt
  | razorClaw
  | leek
  | other
deriving DecidableEq, Repr

inductive CritCopy
  | moveExec
  | damage
deriving DecidableEq, Repr

def CritCopy.itemScopeLens : CritCopy → HeldItem
  | moveExec => .expertBelt
  | damage => .scopeLens

def isMoldBreaker : Ability → Bool
  | .moldBreaker | .teravolt | .turboblaze => true
  | _ => false

structure CritCtx where
  attackerAbility : Ability
  attackerItem : HeldItem
  leekSpecies : Bool
  laserFocus : Bool
  critStage : Nat
  defenderAbility : Ability
  critBoost : Nat
  magicRoom : Bool
deriving DecidableEq, Repr

namespace CritCtx

def blocked (c : CritCtx) : Bool :=
  c.defenderAbility = .magmaArmor ||
    ((c.defenderAbility = .battleArmor || c.defenderAbility = .shellArmor) &&
      !isMoldBreaker c.attackerAbility)

def stage (c : CritCtx) (copy : CritCopy) : Nat :=
  c.critStage +
  (if c.attackerAbility = .superLuck then 1 else 0) +
  (if (c.attackerItem = copy.itemScopeLens ∨ c.attackerItem = .razorClaw) ∧ c.magicRoom = false
    then 1 else 0) +
  (if copy = .damage ∧ c.attackerItem = .leek ∧ c.leekSpecies ∧ c.magicRoom = false
    then 2 else 0) +
  c.critBoost

end CritCtx

def critChanceTable : Fin 4 → Rat
  | 0 => 1 / 16
  | 1 => 1 / 8
  | 2 => 1 / 2
  | 3 => 100

def getCritChance (copy : CritCopy) (c : CritCtx) : Rat :=
  if c.blocked then 0
  else if c.laserFocus then 1
  else critChanceTable ⟨min (c.stage copy) 3, by omega⟩

def wakeChance (isRestSleep : Bool) (sleepTurns : Int) : Rat :=
  if isRestSleep then if 2 ≤ sleepTurns then 100 else 0
  else if sleepTurns ≤ 1 then 0
  else if sleepTurns = 2 then 333 / 10
  else if sleepTurns = 3 then 50
  else 100

def snapChance (confusionTurns : Int) : Rat :=
  if confusionTurns ≤ 1 then 0
  else if confusionTurns = 2 then 25
  else if confusionTurns = 3 then 333 / 10
  else if confusionTurns = 4 then 50
  else 100

structure HitRange where
  minHits : Int
  maxHits : Int
  le : minHits ≤ maxHits

inductive ChanceEvent
  | secondaryFires
  | procFires
  | flinch
deriving DecidableEq, Repr

def ChanceEvent.event : ChanceEvent → RngEvent
  | secondaryFires => .secondaryFires
  | procFires => .procFires
  | flinch => .flinch

inductive ResolverCall
  | accuracy (effAcc : Rat) (isNone : Bool) (threshold : Rat) (side : Int)
  | crit (ctx : CritCtx) (copy : CritCopy) (critThreshold : Rat) (side : Int)
  | multiHit (range : HitRange) (roll : Rat) (side : Int)
  | chance (event : ChanceEvent) (percent : Int) (threshold : Rat) (side : Int)
  | wake (isRestSleep : Bool) (sleepTurns : Int) (threshold : Rat)
  | defrost (threshold : Rat)
  | fullParalysis (threshold : Rat)
  | confusionSnap (confusionTurns : Int) (threshold : Rat)
  | confusionSelfHit (threshold : Rat)
  | confusionSelfHitRoll (roll : Rat)
  | attractImmobilize (threshold : Rat)
  | damageRoll (roll : Rat) (dmgByRoll : DmgByRoll) (side : Int)
  | psywaveRoll (roll : Rat)
  | quickClaw (threshold : Rat)
  | bindingDuration (roll : Rat)
  | rampageDuration (roll : Rat)

def ResolverCall.draw : ResolverCall → Draw
  | accuracy effAcc isNone threshold side => rngResolveAccuracy effAcc isNone threshold side
  | crit ctx copy critThreshold side =>
    rngResolveCrit (getCritChance copy ctx) critThreshold side
  | multiHit range roll side => rngResolveMultiHit range.minHits range.maxHits roll side
  | chance event percent threshold side => rngResolveChance percent threshold event.event side
  | wake isRestSleep sleepTurns threshold =>
    resolveFireHigh (wakeChance isRestSleep sleepTurns) threshold .wake
  | defrost threshold => resolveFireHigh 20 threshold .defrost
  | fullParalysis threshold => resolveCanAct 25 threshold .fullParalysis
  | confusionSnap confusionTurns threshold =>
    resolveFireHigh (snapChance confusionTurns) threshold .confusionSnap
  | confusionSelfHit threshold => resolveConfusionSelfHit threshold
  | confusionSelfHitRoll roll => rngResolveConfusionSelfHitRoll roll
  | attractImmobilize threshold => resolveCanAct 50 threshold .attractImmobilize
  | damageRoll roll dmgByRoll side => rngResolveDamageRoll roll dmgByRoll side
  | psywaveRoll roll => rngResolvePsywaveRollK roll
  | quickClaw threshold => rngResolveQuickClaw threshold
  | bindingDuration roll => rngResolveBindingDuration roll
  | rampageDuration roll => rngResolveRampageDuration roll

end NuzlockeSolver
