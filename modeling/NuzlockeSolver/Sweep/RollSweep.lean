import NuzlockeSolver.Sweep.HpFilter
import NuzlockeSolver.Sweep.KnownActions
import Mathlib.Data.Rat.Defs

/-!
# The enumeration of the damage rolls of a turn

The sweep does not see the damage rolls of a turn. It decides them mover by mover, in the observed
order: the sixteen rolls of a mover are tried with the rolls of the earlier movers fixed and a
placeholder for the later ones, and of the rolls that do the same damage the first is kept. The
rolls of mons that hit themselves in confusion come after the movers.

The simulated turn is a parameter, a function of the sweep configuration.
-/

namespace NuzlockeSolver

inductive RollEntry
  | scalar (roll : ℚ)
  | perHit (rolls : List ℚ)
deriving DecidableEq, Repr

/-- A crit decision: a flag, or a threshold (0 always, 101 never). -/
inductive CritValue
  | flag (crit : Bool)
  | threshold (t : ℚ)
deriving DecidableEq, Repr

inductive CritEntry
  | flag (crit : Bool)
  | perHit (crits : List CritValue)
deriving DecidableEq, Repr

/-- A per-hit override: a tuple, or in doubles a table by source slot. -/
inductive HitOverride (α β : Type)
  | tuple (values : List α)
  | bySlot (table : List (Nat × β))
deriving DecidableEq, Repr

abbrev Overrides (κ : Type) := List (String × κ)

structure SideOverrides (κ : Type) where
  crit : CritEntry := .flag false
  roll : ℚ := 1 / 2
  critsPerHit : Option (HitOverride CritValue CritEntry) := none
  rollsPerHit : Option (HitOverride ℚ RollEntry) := none
  extraOverrides : Option (Overrides κ) := none
deriving DecidableEq, Repr

structure SweepConfig (κ : Type) where
  tieWinner : Nat
  extraPreInject : Option (Overrides κ)
  side0 : SideOverrides κ
  side1 : SideOverrides κ
deriving DecidableEq, Repr

structure PartialCandidate where
  rolls : List RollEntry := []
  crits : List CritEntry := []
  moverIteration : Nat := 0
deriving DecidableEq, Repr

/-- `d or None` of Python. -/
def orNone {κ : Type} (d : Overrides κ) : Option (Overrides κ) := if d.isEmpty then none else some d

/-- `d[slot] = a` of Python, which keeps the place of a key that is there. -/
def slotSet {α : Type} : List (Nat × α) → Nat → α → List (Nat × α)
  | [], slot, a => [(slot, a)]
  | (s, b) :: d, slot, a => if s = slot then (slot, a) :: d else (s, b) :: slotSet d slot a

structure SideTables where
  rolls : List (Nat × RollEntry) := []
  crits : List (Nat × CritEntry) := []
deriving DecidableEq, Repr

def buildSideOverrides {κ : Type} (t : SideTables) (comboOvr : Overrides κ) : SideOverrides κ :=
  match t.rolls with
  | [] => { extraOverrides := orNone comboOvr }
  -- one mover at slot 0: the scalar form of singles
  | [(0, roll)] =>
    let crit := (t.crits.lookup 0).getD (.flag false)
    match roll with
    | .perHit rolls =>
      let critsTuple := match crit with
        | .perHit crits => crits
        | .flag c => List.replicate rolls.length (.flag c)
      { critsPerHit := some (.tuple critsTuple)
        rollsPerHit := some (.tuple rolls)
        extraOverrides := orNone comboOvr }
    | .scalar r => { crit := crit, roll := r, extraOverrides := orNone comboOvr }
  | rolls =>
    { rollsPerHit := some (.bySlot rolls)
      critsPerHit := some (.bySlot t.crits)
      extraOverrides := orNone comboOvr }

structure SweepSetting (κ : Type) where
  tieWinner : Nat
  comboOvr0 : Overrides κ
  comboOvr1 : Overrides κ
  injectedPre : Overrides κ

abbrev MoverEntry := Nat × Nat × RollEntry × CritEntry

abbrev SelfHitRoll := Nat × Nat × ℚ

def setMover (t : PerSide SideTables) (e : MoverEntry) : PerSide SideTables :=
  let side := t.get e.1
  t.set e.1 { rolls := slotSet side.rolls e.2.1 e.2.2.1, crits := slotSet side.crits e.2.1 e.2.2.2 }

def setSelfHit (t : PerSide SideTables) (h : SelfHitRoll) : PerSide SideTables :=
  let side := t.get h.1
  t.set h.1 { side with rolls := slotSet side.rolls h.2.1 (.scalar h.2.2) }

def sweepConfigOf {κ : Type} (setting : SweepSetting κ) (entries : List MoverEntry)
    (selfHits : List SelfHitRoll) : SweepConfig κ :=
  let tables := selfHits.foldl setSelfHit (entries.foldl setMover ⟨{}, {}⟩)
  { tieWinner := setting.tieWinner
    extraPreInject := orNone setting.injectedPre
    side0 := buildSideOverrides tables.player setting.comboOvr0
    side1 := buildSideOverrides tables.opp setting.comboOvr1 }

/-- The entries of the movers from position `i` on: decided before the current one, placeholders
after it. -/
def moverEntries (p : PartialCandidate) (moverIteration : Nat) (currentRoll : RollEntry)
    (currentCrit : CritEntry) : Nat → List (Nat × Nat) → List MoverEntry
  | _, [] => []
  | i, (side, slot) :: movers =>
    (if i < moverIteration then
      (side, slot, (p.rolls[i]?).getD (.scalar (1 / 2)), (p.crits[i]?).getD (.flag false))
    else if i = moverIteration then (side, slot, currentRoll, currentCrit)
    else (side, slot, .scalar (1 / 2), .flag false)) ::
      moverEntries p moverIteration currentRoll currentCrit (i + 1) movers

def makeSweepConfig {κ : Type} (setting : SweepSetting κ) (p : PartialCandidate)
    (movers : List (Nat × Nat)) (moverIteration : Nat) (currentRoll : RollEntry)
    (currentCrit : CritEntry) (selfHitRoll : Option SelfHitRoll) : SweepConfig κ :=
  sweepConfigOf setting (moverEntries p moverIteration currentRoll currentCrit 0 movers)
    selfHitRoll.toList

inductive LogEntry
  | damage (source : String) (attackerSide attackerSlot : Option Nat) (amount : Int)
  | moveUse (side : Option Nat)
  | hitSelfConfusion (side : Option Nat) (damage : Int)
  | other (event : Nat)
deriving DecidableEq, Repr

abbrev CapturingLogger := List LogEntry

def attackerPerHitDamages (log : CapturingLogger) (attackerSide attackerSlot : Nat) : List Int :=
  log.filterMap fun
    | .damage source side slot amount =>
      if source = "move" ∧ side = some attackerSide ∧ slot = some attackerSlot then some amount
      else none
    | _ => none

def selfHitDamage (log : CapturingLogger) (side : Nat) : Int :=
  (log.filterMap fun
    | .hitSelfConfusion s damage => if s = some side then some damage else none
    | _ => none).sum

def moveOrder (log : CapturingLogger) : List (Option Nat) :=
  log.filterMap fun
    | .moveUse side => some side
    | _ => none

def checkActionOrder (log : CapturingLogger) (observedOrder : List Nat) : Bool :=
  if observedOrder.isEmpty then true
  else if (moveOrder log).length < observedOrder.length then false
  else (moveOrder log).take observedOrder.length = observedOrder.map some

def keepFirst {κ α : Type} [DecidableEq κ] : List κ → List (κ × α) → List (κ × α)
  | _, [] => []
  | seen, (k, a) :: l => if k ∈ seen then keepFirst seen l else (k, a) :: keepFirst (k :: seen) l

def sweepRolls : List ℚ := (List.range 16).map fun (k : Nat) => (k : ℚ) / 15

def combinations {α : Type} : List α → Nat → List (List α)
  | _, 0 => [[]]
  | [], _ + 1 => []
  | a :: l, n + 1 => (combinations l n).map (a :: ·) ++ combinations l (n + 1)

def critAssignments (nHits nCrits : Nat) : List (List ℚ) :=
  (combinations (List.range nHits) nCrits).map fun critIndices =>
    (List.range nHits).map fun i => if i ∈ critIndices then 0 else 101

structure SlotList (α : Type) where
  first : α
  rest : List α
deriving DecidableEq, Repr

/-- The entry of a slot, or the first one past the end. -/
def SlotList.get {α : Type} (l : SlotList α) (slot : Nat) : α :=
  ((l.first :: l.rest)[slot]?).getD l.first

inductive SideAction
  | none
  | single (action : ExecAction)
  | slots (actions : SlotList ExecAction)
deriving DecidableEq, Repr

def actingAction : SideAction → Nat → Option ExecAction
  | .none, _ => none
  | .single action, _ => some action
  | .slots actions, sourceSlot => some (actions.get sourceSlot)

/-- The inputs of the phase loop: `run` simulates the turn from the given state with the given
actions. -/
structure PhaseTurn (σ κ : Type) where
  run : SweepConfig κ → Option σ × CapturingLogger
  activeIndices : PerSide (SlotList Nat)
  actions : PerSide SideAction
  movers : List (Nat × Nat)
  moverHitCounts : List Nat
  critCounts : List Nat
  setting : SweepSetting κ
  opponentHpDeltas : List (List (Int × Int))
  playerHpDeltas : List (List (Int × Int))
  opponentMaxHp : SlotList Int
  selfHitSlots : List (Nat × Nat)

structure Survivor (σ : Type) where
  rolls : List RollEntry
  crits : List CritEntry
  state : σ
  log : CapturingLogger

def perHitRolls : Nat → List Int → List (List (Int × ℚ)) → Except SweepFault (List ℚ)
  | i, d :: combo, hitRollMap :: maps =>
    match hitRollMap.lookup d with
    | none => .error (.assertion ("No roll found for hit " ++ toString i ++ " damage " ++
        toString d ++ " — value in hit_damage_sets but missing from hit_roll_map"))
    | some roll => do
      let rolls ← perHitRolls (i + 1) combo maps
      .ok (roll :: rolls)
  | _, _, _ => .ok []

namespace PhaseTurn

variable {σ κ : Type} (T : PhaseTurn σ κ)

def attackerTeamIdx (mover : Nat × Nat) : Nat := (T.activeIndices.get mover.1).get mover.2

def targetSlot (mover : Nat × Nat) : Nat :=
  ((actingAction (T.actions.get mover.1) mover.2).map fun act => act.targetSlot.toNat).getD 0

def targetHpDeltas (mover : Nat × Nat) : List (Int × Int) :=
  ((if 1 - mover.1 = 1 then T.opponentHpDeltas else T.playerHpDeltas)[T.targetSlot mover]?).getD []

/-- The damage of hit `i` at a roll, the other hits pinned to the least roll. A single-hit move
that does no damage counts as 0. -/
def trialDamage (p : PartialCandidate) (iteration : Nat) (mover : Nat × Nat) (nHits : Nat)
    (applyHpPrune : Bool) (crits : List ℚ) (i : Nat) (roll : ℚ) : Option Int :=
  let curRoll : RollEntry :=
    if nHits = 1 then .scalar roll
    else .perHit ((List.range nHits).map fun j => if j = i then roll else 0)
  let curCrit : CritEntry :=
    if nHits = 1 then .flag (crits.headD 101 = 0) else .perHit (crits.map .threshold)
  let out := T.run (makeSweepConfig T.setting p T.movers iteration curRoll curCrit none)
  match out.1 with
  | none => none
  | some _ =>
    match (attackerPerHitDamages out.2 mover.1 (T.attackerTeamIdx mover))[i]? with
    | some dmg => some dmg
    | none => if i = 0 ∧ ¬ applyHpPrune then some 0 else none

def hitRollMap (p : PartialCandidate) (iteration : Nat) (mover : Nat × Nat) (nHits : Nat)
    (applyHpPrune : Bool) (crits : List ℚ) (i : Nat) : List (Int × ℚ) :=
  keepFirst [] (sweepRolls.filterMap fun roll =>
    (T.trialDamage p iteration mover nHits applyHpPrune crits i roll).map fun dmg => (dmg, roll))

def critAssignmentRolls (p : PartialCandidate) (iteration : Nat) (mover : Nat × Nat) (nHits : Nat)
    (applyHpPrune : Bool) (crits : List ℚ) : Except SweepFault (List (List ℚ × List ℚ)) :=
  let maps := (List.range nHits).map (T.hitRollMap p iteration mover nHits applyHpPrune crits)
  if maps.any List.isEmpty then .ok []
  else
    let allowed :=
      if applyHpPrune then
        hitAllowed (segmentHpDeltasIntoHits (T.targetHpDeltas mover)) (1 - mover.1 = 1)
          (T.opponentMaxHp.get (T.targetSlot mover))
      else fun _ _ => true
    let combos := damageCombos allowed [[]] (maps.map fun m => m.map Prod.fst)
    do
      let rolls ← combos.mapM fun combo => perHitRolls 0 combo maps
      .ok (rolls.eraseDups.map fun r => (r, crits))

def enumerateMoverRolls (p : PartialCandidate) (iteration : Nat) (mover : Nat × Nat)
    (nHits nCrits : Nat) (applyHpPrune : Bool) : Except SweepFault (List (List ℚ × List ℚ)) := do
  let results ← (critAssignments nHits nCrits).mapM
    (T.critAssignmentRolls p iteration mover nHits applyHpPrune)
  .ok results.flatten

def moverCritCount (iteration : Nat) (applyHpPrune : Bool) : Nat :=
  let count := (T.critCounts[iteration]?).getD 0
  if applyHpPrune then count else if 0 < count then 1 else 0

def extendPartial (p : PartialCandidate) (iteration : Nat) (applyHpPrune : Bool)
    (r : List ℚ × List ℚ) : PartialCandidate where
  rolls := p.rolls ++ [if applyHpPrune then .perHit r.1 else .scalar (r.1.headD 0)]
  crits := p.crits ++
    [if applyHpPrune then .perHit (r.2.map .threshold) else .flag (r.2.headD 101 = 0)]
  moverIteration := iteration + 1

def moverStep (iteration : Nat) (mover : Nat × Nat) (active : List PartialCandidate) :
    Except SweepFault (List PartialCandidate) := do
  let nHits := (T.moverHitCounts[iteration]?).getD 1
  let applyHpPrune : Bool := 1 < nHits
  let next ← active.mapM fun p => do
    let results ← T.enumerateMoverRolls p iteration mover nHits
      (T.moverCritCount iteration applyHpPrune) applyHpPrune
    .ok (results.map (extendPartial p iteration applyHpPrune))
  .ok next.flatten

def moverLoop : Nat → List (Nat × Nat) → List PartialCandidate →
    Except SweepFault (List PartialCandidate)
  | _, [], active => .ok active
  | iteration, mover :: movers, active => do
    let next ← T.moverStep iteration mover active
    moverLoop (iteration + 1) movers next

def finalRun (p : PartialCandidate) (selfHitRoll : Option SelfHitRoll) : Option (Survivor σ) :=
  let out := T.run (makeSweepConfig T.setting p T.movers T.movers.length (.scalar (1 / 2))
    (.flag false) selfHitRoll)
  match out.1 with
  | none => none
  | some rs =>
    if checkActionOrder out.2 (T.movers.map Prod.fst) then some ⟨p.rolls, p.crits, rs, out.2⟩
    else none

def selfHitRuns (sh : Nat × Nat) (p : PartialCandidate) : List (Survivor σ) :=
  (keepFirst [] (sweepRolls.filterMap fun roll =>
    (T.finalRun p (some (sh.1, sh.2, roll))).map fun s => (selfHitDamage s.log sh.1, s))).map
      Prod.snd

def runPhaseLoop : Except SweepFault (List (Survivor σ)) := do
  let active ← T.moverLoop 0 T.movers [{}]
  .ok (if T.selfHitSlots.isEmpty then active.filterMap fun p => T.finalRun p none
    else T.selfHitSlots.flatMap fun sh => active.flatMap (T.selfHitRuns sh))

end PhaseTurn

end NuzlockeSolver
