import NuzlockeSolver.WeightedList
import NuzlockeSolver.Engine.AiSwitch

/-!
# The analytic action distribution

`cpp_compute_action_probabilities`: a closed product over damage configurations, score distributions
and ties, then the switch gate. Probabilities are rationals.
-/

namespace NuzlockeSolver

namespace Engine

section HighestDamage

variable (hp : Int)

def capped (rolls : RollArray) (i : Fin 16) : Int := min (rolls i) hp

def countRolls (p : Fin 16 → Bool) : Nat := (List.finRange 16).countP p

def countAt (rolls : RollArray) (v : Int) : Nat := countRolls fun i => capped hp rolls i == v

def countBelow (rolls : RollArray) (v : Int) : Nat := countRolls fun i => decide (capped hp rolls i < v)

/-- The distinct capped damages, from the highest down. -/
def damageLevels (arrays : List RollArray) : List Int :=
  ((arrays.flatMap fun rolls => (List.finRange 16).map (capped hp rolls)).dedup).mergeSort
    fun v w => decide (w ≤ v)

structure LevelCounts where
  on : Nat
  kill : Nat
  nokill : Nat
  below : Int

def levelCounts (v : Int) (rolls : RollArray) (above : Int) : LevelCounts where
  on := countAt hp rolls v
  kill := countRolls fun i => capped hp rolls i == v && decide (hp ≤ rolls i)
  nokill := countRolls fun i => capped hp rolls i == v && !decide (hp ≤ rolls i)
  below := 16 - above - countAt hp rolls v

def nonGroupFactor (counts : List LevelCounts) : ℚ :=
  ((counts.filter (·.on == 0)).map fun c => (c.below : ℚ) / 16).prod

def tieShare (others : List LevelCounts) : ℚ :=
  ((List.range (2 ^ others.length)).map fun mask =>
    let onLevel (k : Nat) := Nat.testBit mask k
    let tieSize := 1 + (List.range others.length).countP onLevel
    1 / (tieSize : ℚ) * (others.zipIdx.map fun ck =>
      if onLevel ck.2 then (ck.1.on : ℚ) / 16 else (ck.1.below : ℚ) / 16).prod).sum

def levelShare (counts : List LevelCounts) (i : Nat) (c : LevelCounts) : ℚ × ℚ :=
  if c.on = 0 then (0, 0)
  else
    let share := nonGroupFactor counts * tieShare ((counts.eraseIdx i).filter (·.on != 0))
    ((c.kill : ℚ) / 16 * share, (c.nokill : ℚ) / 16 * share)

structure HighestState where
  above : List Int
  probs : List (ℚ × ℚ)

def highestStep (arrays : List RollArray) (st : HighestState) (v : Int) : HighestState :=
  let counts := (arrays.zip st.above).map fun ra => levelCounts hp v ra.1 ra.2
  { above := (st.above.zip counts).map fun ac => ac.1 + ac.2.on
    probs := (st.probs.zip (counts.zipIdx)).map fun pc =>
      let share := levelShare counts pc.2.2 pc.2.1
      (pc.1.1 + share.1, pc.1.2 + share.2) }

/-- For each move, the probability to do most with and without a kill. -/
def highestDamageProbs (arrays : List RollArray) : List (ℚ × ℚ) :=
  match arrays with
  | [] => []
  | [rolls] =>
    let kill : ℚ := countRolls (fun i => decide (hp ≤ rolls i)) / 16
    [(kill, 1 - kill)]
  | _ =>
    ((damageLevels hp arrays).foldl (highestStep hp arrays)
      ⟨arrays.map fun _ => 0, arrays.map fun _ => (0, 0)⟩).probs

end HighestDamage

section Configs

structure DamageConfig where
  weight : ℚ
  isHighest : List Bool
  kills : List Bool

def inHighest : List ℚ → Nat → List Bool
  | [], _ => []
  | p :: ps, mask =>
    if p > 0 then mask.testBit 0 :: inHighest ps (mask / 2) else false :: inHighest ps mask

def configWeight (pEq pLt : List ℚ) (inH : List Bool) : ℚ :=
  (((pEq.zip pLt).zip inH).map fun x => if x.2 then x.1.1 else x.1.2).prod

/-- The configurations of one level, one for each nonempty subset of its group. -/
def levelConfigs (arrays : List RollArray) (hp v : Int) : List DamageConfig :=
  let pEq := arrays.map fun rolls => (countAt hp rolls v : ℚ) / 16
  let pLt := arrays.map fun rolls => (countBelow hp rolls v : ℚ) / 16
  let groupSize := pEq.countP (0 < ·)
  (((List.range' 1 (2 ^ groupSize - 1)).map fun mask =>
    let inH := inHighest pEq mask
    { weight := configWeight pEq pLt inH
      isHighest := inH
      kills := inH.map fun h => h && v == hp : DamageConfig })).filter (·.weight != 0)

def iterDamageConfigs (arrays : List RollArray) (hp : Int) : List DamageConfig :=
  (damageLevels hp arrays).flatMap (levelConfigs arrays hp)

end Configs

section Accumulate

def cartesian {α : Type} : List (List α) → List (List α)
  | [] => [[]]
  | l :: ls => l.flatMap fun a => (cartesian ls).map (a :: ·)

def maxScore (scores : List Int) : Int := scores.foldl max (-(2 ^ 31))

def winners (indices : List Nat) (scores : List Int) : List Nat :=
  ((indices.zip scores).filter (·.2 == maxScore scores)).map (·.1)

def addShares (rollWeight : ℚ) (indices : List Nat) (probs : List ℚ) (combo : ScoreDist) : List ℚ :=
  let comboProb := rollWeight * (combo.map (·.2)).prod
  if comboProb = 0 then probs
  else
    let won := winners indices (combo.map (·.1))
    won.foldl (fun probs i => probs.modify i (· + comboProb / won.length)) probs

def accumulateWithOther (rollWeight : ℚ) (dmIndices : List Nat) (dmDists : List ScoreDist)
    (otherIndices : List Nat) (otherDists : List ScoreDist) (probs : List ℚ) : List ℚ :=
  (cartesian (dmDists ++ otherDists)).foldl (addShares rollWeight (dmIndices ++ otherIndices)) probs

end Accumulate

section Probabilities

variable (moves : List MoveData) (state : BattleState) (aiIdx : Int)

structure ActionProb where
  action : ExecAction
  prob : ℚ

def possibleMoveScores (action : ExecAction) (split : Option (ℚ × ℚ)) : List Int :=
  let aiFst := aiFaster state aiIdx
  let scores (pHighest : ℚ) (kills : Bool) :=
    (distAction moves state aiIdx action pHighest kills aiFst false).map (·.1)
  match split with
  | some p =>
    (if p.1 > 0 then scores 1 true else []) ++ (if p.2 > 0 then scores 1 false else []) ++
      scores 0 false
  | none => scores 0 false

def maxPossibleMoveScore (action : ExecAction) (split : Option (ℚ × ℚ)) : Int :=
  (possibleMoveScores moves state aiIdx action split).foldl max (-999)

def indexed (actions : List ExecAction) : List (ExecAction × Nat) := actions.zipIdx

def isMoveAction (a : ExecAction) : Bool := a.kind == actionMove

def contextEntry (ctx : List DamageEntry) (a : ExecAction) : Option DamageEntry :=
  ctx.find? (·.slot == a.moveSlot)

def splitBySlot (ctx : List DamageEntry) (plHp : Int) (a : ExecAction) : Option (ℚ × ℚ) :=
  ((ctx.zip (highestDamageProbs plHp (ctx.map (·.rolls)))).find? (·.1.slot == a.moveSlot)).map (·.2)

/-- The part of the gate that no score decides: there is something to switch to and a move to
compare it with, half the HP, and a candidate. -/
def switchGate (actions : List ExecAction) : Except String Bool := do
  let aiMon := activeMon state aiIdx
  if actions.any isMoveAction ∧ actions.any (!isMoveAction ·) ∧ state.format ≠ formatDoubles ∧
    hpPct aiMon ≥ 1 / 2 then hasValidSwitchCandidate moves state aiIdx
  else pure false

/-- No move can score more than 5. -/
def allMovesLow (actions : List ExecAction) (ctx : List DamageEntry) (plHp : Int) : Bool :=
  (actions.filter isMoveAction).all fun a =>
    decide (maxPossibleMoveScore moves state aiIdx a (splitBySlot ctx plHp a) ≤ 5)

def switchTo (switches : List ExecAction) (slot : Nat) : Option ExecAction :=
  (switches.find? (·.switchToSlot == (slot : Int))).or switches.head?

def otherDists (others : List (ExecAction × Nat)) (seesKill : Bool) : List ScoreDist :=
  others.map fun ai => distAction moves state aiIdx ai.1 0 false (aiFaster state aiIdx) seesKill

def damagingDists (damaging : List (ExecAction × Nat)) (cfg : DamageConfig) : List ScoreDist :=
  ((damaging.zip cfg.isHighest).zip cfg.kills).map fun x =>
    distAction moves state aiIdx x.1.1.1 (if x.1.2 then 1 else 0) x.2 (aiFaster state aiIdx) false

def moveProbs (actions : List ExecAction) (ctx : List DamageEntry) (plHp : Int) (exc : Bool) :
    List ℚ :=
  let moveActions := (indexed actions).filter (isMoveAction ·.1)
  let damaging := moveActions.filter fun ai => (contextEntry ctx ai.1).isSome
  let others := moveActions.filter fun ai => !(contextEntry ctx ai.1).isSome
  let zeros := actions.map fun _ => (0 : ℚ)
  let otherIndices := others.map (·.2)
  if damaging.isEmpty then
    accumulateWithOther 1 [] [] otherIndices (otherDists moves state aiIdx others exc) zeros
  else
    let arrays := damaging.filterMap fun ai => (contextEntry ctx ai.1).map (·.rolls)
    (iterDamageConfigs arrays plHp).foldl (fun probs cfg =>
      accumulateWithOther cfg.weight (damaging.map (·.2)) (damagingDists moves state aiIdx damaging cfg)
        otherIndices (otherDists moves state aiIdx others (exc || cfg.kills.any id)) probs) zeros

def gatedProbs (actions : List ExecAction) (probs : List ℚ) (target : Option ExecAction) :
    List ActionProb :=
  match target with
  | none => (actions.zip probs).map fun ap => ⟨ap.1, ap.2⟩
  | some t => (actions.zip probs).map fun ap =>
    if isMoveAction ap.1 then ⟨ap.1, ap.2 / 2⟩
    else ⟨ap.1, if ap.1 = t then 1 / 2 else 0⟩

def expandDoubles (probs : List ActionProb) : List ActionProb :=
  if state.format = formatDoubles ∧
    (state.side (1 - aiIdx)).activeIndices.toList.length ≥ 2 then
    probs.flatMap fun ap =>
      let md := moveDataGet moves (moveIdAt (activeMon state aiIdx) ap.action.moveSlot)
      if isMoveAction ap.action ∧ ap.action.moveSlot ≥ 0 ∧ ap.action.targetSlot = 0 ∧
        md.any fun md => md.tags &&& tagDamage != 0 then
        [⟨ap.action, ap.prob / 2⟩, ⟨{ ap.action with targetSlot := 1 }, ap.prob / 2⟩]
      else [ap]
  else probs

def computeActionProbabilities : Except String (List ActionProb) := do
  let actions := enumerateLegalActions moves state aiIdx 0
  if actions.isEmpty then pure []
  else
    let ctx := buildDamageContext moves state aiIdx actions
    let plHp := (activeMon state (1 - aiIdx)).hp.toInt
    let exc ← exceptionMoveSeesKill moves state aiIdx
    let gate ← switchGate moves state aiIdx actions
    let target ←
      if gate && allMovesLow moves state aiIdx actions ctx plHp then do
        let slot ← selectVoluntarySwitchTarget moves state aiIdx
        pure (switchTo (actions.filter (!isMoveAction ·)) slot)
      else pure none
    pure (expandDoubles moves state aiIdx
      (gatedProbs actions (moveProbs moves state aiIdx actions ctx plHp exc) target))

def possibleAiActions : Except String (List ExecAction) := do
  let dist ← computeActionProbabilities moves state aiIdx
  pure ((dist.filter (0 < ·.prob)).map (·.action))

end Probabilities

end Engine

end NuzlockeSolver
