import Mathlib.Data.List.Sort
import Mathlib.Data.List.Dedup
import NuzlockeSolver.Oracle.Fallible
import NuzlockeSolver.Oracle.Restart
import NuzlockeSolver.Engine.AiDamage
import NuzlockeSolver.Engine.Effects

/-!
# Turn order

Who acts next: `cpp_build_pending_entries` settles the tiebreakers and the items that let a mon go
first, once a turn; `cpp_select_next_action` sorts by priority and speed before every action and
asks for an ordering when two sides are level.
-/

namespace NuzlockeSolver

namespace Engine

inductive TurnLogEntry
  | forcedSwitch (p0 p1 : Option Int32)
  | phaze (side : Int) (target : Int32)
deriving DecidableEq

inductive Command
  | draw (call : ResolverCall)
  | log (entry : TurnLogEntry)

abbrev TurnScript := Script Command RngEvent OracleAnswer Fault

/-- What a pause does not roll back. -/
structure TurnWorld where
  channels : Channels := {}
  actionLog : List TurnLogEntry := []

def TurnWorld.exec (w : TurnWorld) : Command → Except Fault (Int × TurnWorld)
  | .draw call => do
    let (v, c) ← call.draw.resolve w.channels
    pure (call.draw.outcome v, { w with channels := c })
  | .log entry => .ok (0, { w with actionLog := w.actionLog ++ [entry] })

def execCommand (c : Command) (w : TurnWorld) : Except Fault (Int × TurnWorld) := w.exec c

namespace TurnScript

variable {σ : Type}

def draw (call : ResolverCall) : TurnScript Int := .call (.draw call) .done

def log (entry : TurnLogEntry) : TurnScript Unit := .call (.log entry) fun _ => .done ()

def ofTurn : Turn σ → TurnScript σ
  | .done s => .done s
  | .draw call next => .call (.draw call) fun v => ofTurn (next v)
  | .ask event options next => .ask event options fun a => ofTurn (next a)

def ofExcept : Except Fault σ → TurnScript σ
  | .ok s => .done s
  | .error f => .fail f

def ofFallible (t : FallibleTurn σ) : TurnScript σ := (ofTurn t.run).bind ofExcept

end TurnScript

section Entries

def abPrankster : Int32 := 158
def abGaleWings : Int32 := 177
def abTriage : Int32 := 205
def abQuickDraw : Int32 := 259
def abMyceliumMight : Int32 := 298

def itemCustapBerry : Int32 := 210
def itemQuickClaw : Int32 := 217

def moveWideGuard : Int32 := 469
def moveQuickGuard : Int32 := 501

structure ActionC where
  kind : Int := 0
  moveSlot : Int := -1
  targetSlot : Int := 0
  switchToSlot : Int := -1
  sourceSlot : Int := 0
  targetSide : Int := -1
deriving DecidableEq, Inhabited

def toActionC (a : ExecAction) : ActionC where
  kind := a.kind
  moveSlot := a.moveSlot
  targetSlot := a.targetSlot
  switchToSlot := a.switchToSlot
  sourceSlot := a.sourceSlot
  targetSide := a.targetSide

structure TurnLuck where
  quickClawThreshold : ℚ := 50
  secondaryThreshold : ℚ := 50
  luckTier : Int := 1

structure Entry where
  sideIdx : Int
  sourceSlot : Int
  action : ActionC
  tie : Int
  priorityItemFires : Bool
  quickDrawFires : Bool
deriving DecidableEq, Inhabited

def activeSlot (state : BattleState) (sideIdx slot : Int) : PokemonState :=
  (state.side sideIdx).mon (activeIdx state sideIdx slot.toNat)

def movePriority (moves : List MoveData) (mon : PokemonState) (moveSlot : Int) : Int :=
  if moveSlot < 0 then 0
  else ((moveDataGet moves (moveIdAt mon moveSlot)).map fun md => md.priority.toInt).getD 0

def isStatusMove (moves : List MoveData) (moveId : Int32) : Bool :=
  (moveDataGet moves moveId).any (·.category == catStatus)

def cppCheckPriorityItem (moves : List MoveData) (state : BattleState) (sideIdx : Int)
    (action : ActionC) (luck : TurnLuck) (sourceSlot : Int) : TurnScript (Bool × BattleState) :=
  let pokemon := activeSlot state sideIdx sourceSlot
  if 0 < movePriority moves pokemon action.moveSlot then pure (false, state)
  else if pokemon.ability = abMyceliumMight ∧ 0 ≤ action.moveSlot ∧
      isStatusMove moves (moveIdAt pokemon action.moveSlot) then pure (false, state)
  else if pokemon.item = itemQuickClaw then do
    let fires ← TurnScript.draw (.quickClaw luck.quickClawThreshold)
    pure (fires != 0, state)
  else if pokemon.item = itemCustapBerry then
    let opp := activeSlot state (1 - sideIdx) 0
    let threshold :=
      pokemon.maxHp.toInt.tdiv (if pokemon.ability = Effects.abGluttony then 2 else 4)
    if Effects.berrySuppressors.contains opp.ability then pure (false, state)
    else if pokemon.hp.toInt ≤ threshold then
      pure (true, state.modifyMon sideIdx (activeIdx state sideIdx sourceSlot.toNat)
        fun mon => { mon with item := itemNone })
    else pure (false, state)
  else pure (false, state)

def resolveQuickDraw (moves : List MoveData) (state : BattleState) (sideIdx sourceSlot : Int)
    (a : ActionC) (luck : TurnLuck) : Bool :=
  let attacker := activeSlot state sideIdx sourceSlot
  decide (a.kind = actionMove) && decide (0 ≤ a.moveSlot) && attacker.ability == abQuickDraw &&
    (moveDataGet moves (moveIdAt attacker a.moveSlot)).any (·.category != catStatus) &&
    decide (luck.secondaryThreshold ≤ 30)

def effectiveSourceSlotForAction (a : ActionC) : Int :=
  if a.kind = actionSwitch ∧ a.targetSlot ≠ 0 then a.targetSlot else a.sourceSlot

def priorityItemFires (moves : List MoveData) (state : BattleState) (sideIdx : Int) (a : ActionC)
    (luck : TurnLuck) (slot : Int) : TurnScript (Bool × BattleState) :=
  if a.kind = actionMove then cppCheckPriorityItem moves state sideIdx a luck slot
  else pure (false, state)

def buildEntry (moves : List MoveData) (sideIdx : Int) (luck : TurnLuck)
    (built : BattleState × List Entry) (a : ActionC) : TurnScript (BattleState × List Entry) := do
  let slot := effectiveSourceSlotForAction a
  let (fires, state) ← priorityItemFires moves built.1 sideIdx a luck slot
  let quickDraw := resolveQuickDraw moves state sideIdx slot a luck
  pure (state, built.2 ++ [⟨sideIdx, slot, a, luck.luckTier, fires, quickDraw⟩])

def cppBuildPendingEntries (moves : List MoveData) (state : BattleState)
    (actionsP1 actionsP2 : List ActionC) (luckP1 luckP2 : TurnLuck) :
    TurnScript (BattleState × List Entry) := do
  let built ← actionsP1.foldlM (buildEntry moves 0 luckP1) (state, [])
  actionsP2.foldlM (buildEntry moves 1 luckP2) built

end Entries

section Select

structure SortKey where
  movePriority : Int
  speedKey : Int
  tie : Int
deriving DecidableEq

def SortKey.topTwoEqual (k o : SortKey) : Bool :=
  k.movePriority == o.movePriority && k.speedKey == o.speedKey

def SortKey.greater (k o : SortKey) : Bool :=
  if k.movePriority ≠ o.movePriority then decide (o.movePriority < k.movePriority)
  else if k.speedKey ≠ o.speedKey then decide (o.speedKey < k.speedKey)
  else decide (o.tie < k.tie)

def triagePriorityBump (ability : Int32) (md : MoveData) : Int :=
  if ability = abTriage ∧ (md.tags &&& tagRecovery ≠ 0 ∨ md.drainNum ≠ -1) then 3 else 0

def raisedPriority (moves : List MoveData) (state : BattleState) (attacker : PokemonState)
    (moveSlot : Int) : Int :=
  if moveSlot < 0 then 0
  else
    let move := moveIdAt attacker moveSlot
    let md := moveDataGet moves move
    let base := movePriority moves attacker moveSlot
    let base :=
      if protectMoves.contains move ∧ move ≠ moveWideGuard ∧ move ≠ moveQuickGuard then 4 else base
    let base :=
      if attacker.ability = abGaleWings ∧ md.any (·.moveType == typeFlying) then base + 1 else base
    let base :=
      if attacker.ability = abPrankster ∧ md.any (·.category == catStatus) then base + 1 else base
    let base := base + (md.map (triagePriorityBump attacker.ability)).getD 0
    if move = moveGrassyGlide ∧ state.terrain = terrainGrassy ∧ isGrounded attacker state then
      base + 1
    else base

def actionSortKey (moves : List MoveData) (state : BattleState) (e : Entry) : SortKey :=
  if e.action.kind = actionSwitch then ⟨7, 0, 0⟩
  else
    let attacker := activeSlot state e.sideIdx e.sourceSlot
    let speed :=
      if e.action.kind = actionMove ∧ (e.priorityItemFires ∨ e.quickDrawFires) then 9999
      else effectiveSpeed attacker (state.side e.sideIdx) state
    ⟨raisedPriority moves state attacker e.action.moveSlot,
      if hasPseudoWeather state pwTrickRoom then -speed else speed, e.tie⟩

def speedTieValueFromOrder (order : List (Int × Int)) (sideIdx sourceSlot : Int) :
    Except Fault Int :=
  match order.findIdx? (· = (sideIdx, sourceSlot)) with
  | some pos => .ok (order.length - pos)
  | none => .error (.runtimeError ("speed_tie override ordering missing slot ("
      ++ toString sideIdx ++ "," ++ toString sourceSlot ++ ")"))

def applyOrder (a : OracleAnswer) (pending : List Entry) : Except Fault (List Entry) :=
  let order :=
    match a with
    | .order order => order
    | .pick _ _ => []
  pending.mapM fun (e : Entry) => do
    let tie ← speedTieValueFromOrder order e.sideIdx e.sourceSlot
    pure { e with tie := tie }

def encodeSpeedTieOptions (pending : List Entry) : List Int :=
  ((pending.map fun (e : Entry) => e.sideIdx * 10 + e.sourceSlot).insertionSort (· ≤ ·)).dedup

def levelWith (moves : List MoveData) (state : BattleState) (x y : Entry) : Bool :=
  (actionSortKey moves state x).topTwoEqual (actionSortKey moves state y) &&
    decide (x.sideIdx ≠ y.sideIdx) && decide (x.action.kind = actionMove) &&
    decide (y.action.kind = actionMove)

def hasSpeedTie (moves : List MoveData) (state : BattleState) : List Entry → Bool
  | [] => false
  | e :: rest => rest.any (levelWith moves state e) || hasSpeedTie moves state rest

def bestIdx (moves : List MoveData) (state : BattleState) (pending : List Entry) : Nat :=
  (List.range pending.length).foldl (fun best i =>
    if (actionSortKey moves state (pending.getD i default)).greater
        (actionSortKey moves state (pending.getD best default)) then i
    else best) 0

def takeBest (moves : List MoveData) (state : BattleState) (pending : List Entry) :
    Entry × List Entry :=
  let i := bestIdx moves state pending
  (pending.getD i default, pending.eraseIdx i)

/-- An ordering at hand is taken whether or not there is a tie. -/
def cppSelectNextAction (moves : List MoveData) (state : BattleState) (pending : List Entry) :
    TurnScript (Entry × List Entry) :=
  let ordered (a : OracleAnswer) :=
    (TurnScript.ofExcept (applyOrder a pending)).bind fun pending =>
      .done (takeBest moves state pending)
  if pending.isEmpty then .fail (.runtimeError "cpp_select_next_action called with empty pending")
  else if hasSpeedTie moves state pending then
    .ask .speedTie (encodeSpeedTieOptions pending) ordered
  else .offer .speedTie fun a => a.elim (.done (takeBest moves state pending)) ordered

end Select

end Engine

end NuzlockeSolver
