import NuzlockeSolver.Engine.AiAnalytic

/-!
# The sampling policy of the AI

`AIPolicy::select` as a program over independent ideal draws: the damage rolls, one score for each
action, the switch gate, and the pick among the best moves.
-/

namespace NuzlockeSolver

namespace Engine

open WeightedList

section Draws

def uniform {α : Type} (l : List α) : List (α × ℚ) := l.map fun a => (a, 1 / (l.length : ℚ))

/-- The first score whose cumulated probability exceeds a uniform number of the unit interval has
the length of the interval that picks it; `reached` is the part already passed. -/
def pickByCumulative (cumulative reached : ℚ) : ScoreDist → List (Int × ℚ) × ℚ
  | [] => ([], reached)
  | (score, p) :: dist =>
    let cumulative := cumulative + p
    let top := max reached (min 1 cumulative)
    let rest := pickByCumulative cumulative top dist
    ((score, top - reached) :: rest.1, rest.2)

def drawScore (dist : ScoreDist) : List (Int × ℚ) :=
  match dist.getLast? with
  | none => point 0
  | some last =>
    let picked := pickByCumulative 0 0 dist
    picked.1 ++ [(last.1, 1 - picked.2)]

end Draws

section Sampling

variable (moves : List MoveData) (state : BattleState) (aiIdx : Int)

structure HighestSlots where
  highest : List Int
  kill : List Int

def highestSlots (slots : List Int) (raws : List Int) (hp : Int) : HighestSlots :=
  let best := (raws.map (min · hp)).max?.getD 0
  { highest := ((slots.zip raws).filter fun sr => min sr.2 hp == best).map (·.1)
    kill := ((slots.zip raws).filter fun sr => decide (hp ≤ sr.2)).map (·.1) }

def sampleRolls (ctx : List DamageEntry) : List (List Int × ℚ) :=
  drawAll (fun e => (uniform (List.finRange 16)).map fun iw => (e.rolls iw.1, iw.2)) ctx

def sampleHighestSlots (ctx : List DamageEntry) (hp : Int) : List (HighestSlots × ℚ) :=
  andThen (sampleRolls ctx) fun raws => point (highestSlots (ctx.map (·.slot)) raws hp)

def sampleScore (slots : HighestSlots) (exc : Bool) (action : ExecAction) : List (Int × ℚ) :=
  if action.kind = actionSwitch then point 0
  else
    let isHighest := isMoveAction action && slots.highest.contains action.moveSlot
    let rollKills := isMoveAction action && slots.kill.contains action.moveSlot
    drawScore (distAction moves state aiIdx action (if isHighest then 1 else 0)
      (isHighest && rollKills) (aiFaster state aiIdx) (exc || !slots.kill.isEmpty))

structure AiScoreResult where
  actions : List ExecAction
  scores : List Int
  switchTarget : Option ExecAction

def secondTargets (actions : List ExecAction) : List ExecAction :=
  if state.format = formatDoubles ∧ (state.side (1 - aiIdx)).activeIndices.toList.length ≥ 2 then
    (actions.filter fun a =>
      let md := moveDataGet moves (moveIdAt (activeMon state aiIdx) a.moveSlot)
      isMoveAction a && decide (a.moveSlot ≥ 0) && a.targetSlot == 0 &&
        md.any fun md => md.tags &&& tagDamage != 0).map fun a => { a with targetSlot := 1 }
  else []

def sampledSwitchTarget (actions : List ExecAction) (scores : List Int) :
    Except String (Option ExecAction) := do
  let allLow := (actions.zip scores).all fun as => !isMoveAction as.1 || decide (as.2 ≤ 5)
  if actions.any isMoveAction ∧ actions.any (!isMoveAction ·) ∧ state.format ≠ formatDoubles ∧
    hpPct (activeMon state aiIdx) ≥ 1 / 2 ∧ allLow then
    let valid ← hasValidSwitchCandidate moves state aiIdx
    if valid then
      let slot ← selectVoluntarySwitchTarget moves state aiIdx
      Except.ok (switchTo (actions.filter (!isMoveAction ·)) slot)
    else Except.ok none
  else Except.ok none

def scoreAiActions : List (Except String AiScoreResult × ℚ) :=
  let actions := enumerateLegalActions moves state aiIdx 0
  if actions.isEmpty then point (.ok ⟨[], [], none⟩)
  else
    andThen (sampleHighestSlots (buildDamageContext moves state aiIdx actions)
      (activeMon state (1 - aiIdx)).hp.toInt) fun slots =>
      match exceptionMoveSeesKill moves state aiIdx with
      | .error e => point (.error e)
      | .ok exc =>
        let actions := actions ++ secondTargets moves state aiIdx actions
        andThen (drawAll (sampleScore moves state aiIdx slots exc) actions) fun scores =>
          point ((sampledSwitchTarget moves state aiIdx actions scores).map
            fun target => ⟨actions, scores, target⟩)

end Sampling

section Select

def tieBreak (res : AiScoreResult) : List (Except String ExecAction × ℚ) :=
  let moveScores := (res.actions.zip res.scores).filter (isMoveAction ·.1)
  match (moveScores.map (·.2)).max? with
  | none => point
    (.error "AIPolicy::select: no move actions available (Struggle must always exist)")
  | some best =>
    (uniform ((moveScores.filter (·.2 == best)).map (·.1))).map fun aw => (.ok aw.1, aw.2)

def select (moves : List MoveData) (state : BattleState) (aiIdx : Int) :
    List (Except String ExecAction × ℚ) :=
  andThen (scoreAiActions moves state aiIdx) fun scored =>
    match scored with
    | .error e => point (.error e)
    | .ok res =>
      if res.actions.isEmpty then point (.error "AIPolicy: no legal actions")
      else
        match res.switchTarget with
        | some target =>
          andThen [(true, 1 / 2), (false, 1 / 2)] fun gate =>
            if gate then point (.ok target) else tieBreak res
        | none => tieBreak res

/-- The probability that the policy returns an action. -/
def selectProb (moves : List MoveData) (state : BattleState) (aiIdx : Int) (a : ExecAction) : ℚ :=
  avg (select moves state aiIdx) fun r =>
    match r with
    | .ok b => if b = a then 1 else 0
    | .error _ => 0

end Select

end Engine

end NuzlockeSolver
