import NuzlockeSolver.Engine.Analytic

/-!
# The scope gate of the analytic certifier

The certifier races only matchups of plain single hits, entered without statuses, boosts, screens
or weather. Every reason against a matchup is one bit.
-/

namespace NuzlockeSolver

namespace Engine

section Bits

def scopeBit (n : UInt32) : UInt32 := 1 <<< n

def scopeMultiHit : UInt32 := scopeBit 0

def scopeAccuracyLt100 : UInt32 := scopeBit 1

def scopeSecondary : UInt32 := scopeBit 2

def scopeRecoil : UInt32 := scopeBit 3

def scopeDrain : UInt32 := scopeBit 4

def scopeBinding : UInt32 := scopeBit 5

def scopePriority : UInt32 := scopeBit 7

def scopeHpDepBp : UInt32 := scopeBit 8

def scopeWeatherScreen : UInt32 := scopeBit 9

def scopeEntryDirty : UInt32 := scopeBit 10

def scopeItemNotAllowed : UInt32 := scopeBit 11

def scopeOppNoDamage : UInt32 := scopeBit 12

def scopeNondefaultQuestion : UInt32 := scopeBit 13

def scopeResidualUnknown : UInt32 := scopeBit 14

def bitIf (c : Prop) [Decidable c] (bit : UInt32) : UInt32 := if c then bit else 0

end Bits

section Moves

/-- What a secondary effect does to its target; `selfFlags` has one flag for each stat change. -/
structure SecondaryEffect where
  hasStatus : Bool := false
  flinch : Bool := false
  volatileConfused : Int8 := 0
  selfFlags : List Int8 := []

structure ScopeMoveData extends MoveData where
  accuracy : Int8 := 100
  drainNum : Int8 := -1
  secondary : SecondaryEffect := {}
  secondary2Chance : Int8 := 0
  secondary2 : SecondaryEffect := {}

def hpDepMoves : List Int32 :=
  [284, 323, 175, 179, 360, 486, 378, 462, 49, 82, 69, 101, 162, 717, 149, 515, 283, 68, 243, 368,
    255, 514, 500, 681, 386, 363, 497, 205, 301, 419, 372, 279, 371, 362, 707, 512, 755, 754, 804,
    265, 358, 506, 263, 474]

def bindingMoves : List Int32 := [250, 83, 328, 463, 611, 128, 35, 20]

def isHpDepMove (moveId : Int32) : Bool := hpDepMoves.contains moveId

def isBindingMove (moveId : Int32) : Bool := bindingMoves.contains moveId

def SecondaryEffect.hitsTarget (sec : SecondaryEffect) (chance : Int8) : Bool :=
  decide (chance > 0) &&
    (sec.hasStatus || sec.flinch || decide (sec.volatileConfused > 0) || sec.selfFlags.contains 0)

def checkMoveScope (table : List ScopeMoveData) (moveId : Int32) : UInt32 :=
  if moveId ≤ 0 then 0
  else match table.find? (·.moveId = moveId) with
    | none => scopeHpDepBp
    | some md =>
      bitIf (md.maxHits > 1) scopeMultiHit |||
        bitIf (md.accuracy ≥ 0 ∧ md.accuracy < 100) scopeAccuracyLt100 |||
        bitIf (md.recoilNum ≥ 0) scopeRecoil |||
        bitIf (md.drainNum ≥ 0) scopeDrain |||
        bitIf (md.priority ≠ 0) scopePriority |||
        bitIf (isHpDepMove moveId) scopeHpDepBp |||
        bitIf (isBindingMove moveId) scopeBinding |||
        bitIf (md.secondary.hitsTarget md.secondaryChance ||
          md.secondary2.hitsTarget md.secondary2Chance) scopeSecondary

end Moves

section Gate

variable (table : List ScopeMoveData) (state : BattleState)

def playerItemAllowed (item : Int32) : Bool := item == itemNone

def oppItemAllowed (item : Int32) : Bool :=
  item == itemNone || item == itemSitrusBerry || item == itemFocusSash

def nondefaultQuestion (q : Question) : Bool :=
  decide (q.keepHp > 0) || decide (q.keepItem > 0) || decide (q.banMove ≥ 0) ||
    !q.requireOppFaint || !q.requireNoFaint

def dirtyMon (mon : PokemonState) : Bool :=
  mon.status != 0 || mon.stage0 != 0 || mon.stage1 != 0 || mon.stage2 != 0 || mon.stage3 != 0 ||
    mon.stage4 != 0 || mon.volatiles != 0 || !mon.timedVolatiles.toList.isEmpty ||
    mon.toxicTurns != 0 || mon.sleepTurns != 0 || mon.confusionTurns != 0 || mon.subHp != 0 ||
    decide (mon.lockedSlot ≥ 0) || decide (mon.chargingMoveSlot ≥ 0)

def fieldConditions : Bool :=
  !state.side0.sideConditions.toList.isEmpty || !state.side1.sideConditions.toList.isEmpty ||
    state.weather != 0 || state.terrain != 0 || !state.pseudoWeather.toList.isEmpty

def unrecognizedConsumables : List Int32 := [149, 150, 151, 152, 153, 156, 157, 154, 230, 214]

def residualUnknown (mon : PokemonState) : Bool := unrecognizedConsumables.contains mon.item

def movesScope (mon : PokemonState) : UInt32 :=
  (([0, 1, 2, 3] : List Int).map fun slot => checkMoveScope table (moveIdAt mon slot)).foldl
    (· ||| ·) 0

def effectiveSlot (slot : Int) : Bool :=
  let moves := table.map (·.toMoveData)
  match damagingMove moves (moveIdAt (activeMon state 1) slot) with
  | none => false
  | some md =>
    if md.basePower = 0 ∧ !isHpDepMove md.moveId then false
    else match queryDamageTable moves state 1 (makeMoveAction slot) with
      | .error _ => false
      | .ok dt => !dt.immune && dt.values.any (0 < ·)

def fullScopeCheck (q : Question) : UInt32 :=
  let pl := activeMon state 0
  let opp := activeMon state 1
  bitIf (nondefaultQuestion q) scopeNondefaultQuestion |||
    bitIf (dirtyMon pl || dirtyMon opp) scopeEntryDirty |||
    bitIf (fieldConditions state) scopeWeatherScreen |||
    bitIf (!playerItemAllowed pl.item || !oppItemAllowed opp.item) scopeItemNotAllowed |||
    bitIf (residualUnknown pl || residualUnknown opp) scopeResidualUnknown |||
    movesScope table pl ||| movesScope table opp |||
    bitIf (!([0, 1, 2, 3] : List Int).any (effectiveSlot table state)) scopeOppNoDamage

end Gate

section Certify

variable (table : List ScopeMoveData) (state : BattleState)

structure Certificate extends AnalyticResult where
  verdict : AVerdict
  scopeMask : UInt32 := 0

def certifierCtx : RunLineCtx :=
  let opp := activeMon state 1
  { state0 := state
    plMaxHp := (activeMon state 0).maxHp.toInt
    oppMaxHp := opp.maxHp.toInt
    oppHasSitrus := opp.item == itemSitrusBerry
    oppHasSash := opp.item == itemFocusSash }

def startLine : LineState :=
  let pl := activeMon state 0
  let opp := activeMon state 1
  { pw := pl.hp.toInt
    pwHi := pl.hp.toInt
    oLo := opp.hp.toInt
    oHi := opp.hp.toInt
    oppItemUsed := false
    tight := opp.item != itemSitrusBerry }

def hpSet (mon : PokemonState) : Bool := mon.hasHp && mon.hasMaxHp && decide (mon.hp > 0)

def certifierPlay : LineState → Except String TurnPlay :=
  turnPlay (table.map (·.toMoveData)) (certifierCtx state)

def finishCertificate (tight : Bool) (run : LineRun) : Certificate :=
  let tight := tight && run.result.tight
  if run.verdict = .loss ∧ !tight then
    { run.result with tight := tight, tag := .notTight, verdict := .unknown }
  else
    { run.result with
      tight := tight
      tag := if run.verdict = .unknown then run.result.tag else .ok
      verdict := run.verdict }

def analyticCertify (q : Question) : Except String Certificate :=
  let bits := fullScopeCheck table state q
  if bits ≠ 0 then
    pure { tag := if bits &&& scopeOppNoDamage ≠ 0 then .stall else .scope
           verdict := .unknown
           scopeMask := bits }
  else if !hpSet (activeMon state 0) then
    throw "analytic: player has_hp/has_max_hp unset or HP <= 0"
  else if !hpSet (activeMon state 1) then
    throw "analytic: opp has_hp/has_max_hp unset or HP <= 0"
  else do
    let L := startLine state
    let run ← runLine (certifierPlay table state) (depthCap + 1) L 0 {}
    pure (finishCertificate L.tight run)

variable {table state}

/-- A certificate other than unknown passed the gate, and every order of the race comes to the death
it tells of. -/
theorem ends_of_analyticCertify {q : Question} {cert : Certificate} {r₀ : TurnResult}
    (h : analyticCertify table state q = .ok cert) (hdeath : cert.verdict.death = some r₀) :
    fullScopeCheck table state q = 0 ∧ Ends (certifierPlay table state) r₀ (startLine state) := by
  unfold analyticCertify at h
  dsimp only at h
  split at h
  · cases h
    cases hdeath
  · rename_i hscope
    split at h
    · cases h
    · split at h
      · cases h
      · obtain ⟨run, hrun, h⟩ := bind_eq_ok.1 h
        cases h
        refine ⟨not_not.1 hscope, ends_of_runLine hrun ?_⟩
        unfold finishCertificate at hdeath
        dsimp only at hdeath
        split at hdeath
        · cases hdeath
        · exact hdeath

end Certify

end Engine

end NuzlockeSolver
