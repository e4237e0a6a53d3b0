import NuzlockeSolver.Oracle.Regions
import NuzlockeSolver.Engine.TurnOrder
import NuzlockeSolver.Engine.Residuals
import NuzlockeSolver.Engine.FaintQueue
import NuzlockeSolver.Engine.EndOfTurn

/-!
# One turn of the driver

`cpp_run_one_turn` with an oracle, as `GameDriver` calls it: the beginning of the turn, the movers
in the order in which they are selected, the residual phase, and the end. Each mover is a region
of its own, and so is the residual phase; a pause goes back to the start of its region. What a
single move does is a parameter, and so are the entry effects and the changes of form.
-/

namespace NuzlockeSolver

namespace Engine

section Values

def moveMetronome : Int32 := 118
def moveAssist : Int32 := 274
def moveStruggleLocal : Int32 := 165
def abSuctionCups : Int32 := 21
def itemRedOrb : Int32 := 40
def itemBlueOrb : Int32 := 41
def volatileFlinched : Int32 := 64

def metronomeExcluded : List Int32 :=
  [12, 19, 32, 68, 90, 91, 118, 119, 130, 143, 144, 165, 182, 194, 197, 203, 214, 243,
    250, 253, 255, 264, 266, 267, 270, 274, 289, 291, 340, 343, 364, 382, 383, 448, 476,
    505, 507, 553, 554, 561, 562, 588, 617, 661, 690, 704, 713, 714, 721, 722, 730, 744,
    775, 776, 779, 783, 787, 788, 874, 889, 890]

def sleepTalkExcluded : List Int32 :=
  [13, 19, 76, 91, 119, 130, 143, 214, 253, 264, 274, 289, 291, 340, 382, 383,
    507, 562, 566, 669, 690, 704, 800, 905]

def metronomeOptions (moves : List MoveData) : List Int :=
  ((moves.map MoveData.moveId).filter fun id =>
    id != 0 && id != moveStruggleLocal && !metronomeExcluded.contains id).map Int32.toInt

def sleepTalkOptions (mon : PokemonState) : List Int :=
  (([0, 1, 2, 3].map (moveIdAt mon)).filter fun id =>
    id != 0 && !sleepTalkExcluded.contains id).map Int32.toInt

end Values

section State

structure ExecCtx where
  protectedSides : Bool × Bool := (false, false)
  protectMove : Int32 × Int32 := (-1, -1)
  wideGuardSides : Bool × Bool := (false, false)
  quickGuardSides : Bool × Bool := (false, false)
  competitiveDefiantTriggered : Bool × Bool := (false, false)
  ejectPackSides : List Int := []
deriving DecidableEq

structure OppAction where
  kind : Int
  moveSlot : Int
  moveOverride : Int
deriving DecidableEq

structure Mover where
  sideIdx : Int
  action : ExecAction
  attackerSlot : Int
  oppAction : Option OppAction

structure Scene where
  state : BattleState
  ctx : ExecCtx
  expParticipants : ExpParticipants
  pending : List PendingSwitch := []

structure MegaEntry where
  item : Int32
  megaSpecies : Int32
  megaAbility : Int32
  preSpecies : Int32

/-- What a turn reads. `executeMove` is the body of a move that is no recharge; `ejections` are the
sides whose Eject Pack goes off when a mon enters. -/
structure TurnEnv extends ResidualEnv where
  moves : List MoveData
  entry : EntryRules
  ejections : BattleState → Int → Int32 → List Int
  megaTable : List MegaEntry
  formChange : BattleState → Int → Int32 → BattleState
  terrainSeeds : BattleState → BattleState
  turnStartEffects : BattleState → BattleState
  endForms : BattleState → BattleState
  executeMove : Mover → Scene → TurnScript Scene
  turnLuck : TurnLuck × TurnLuck

structure TurnLoop where
  state : BattleState
  ctx : ExecCtx := {}
  expParticipants : ExpParticipants
  turnStartActive : List (Int × Int32)
  pending : List Entry
  submitted : List ExecAction × List ExecAction
  actions : List ExecAction × List ExecAction

def ofSide {α : Type} (p : α × α) (sideIdx : Int) : α := if sideIdx = 0 then p.1 else p.2

def clearFirst : ExpParticipants → ExpParticipants
  | [] => []
  | _ :: rest => [] :: rest

def trackPresence (state : BattleState) (participants : ExpParticipants) : ExpParticipants :=
  participants.map fun set =>
    ((state.side 0).activeIndices.toList.map fun i => i.toInt.toNat).foldl
      (fun set i => if i ∈ set then set else set ++ [i]) set

end State

section Execute

def handleRechargeAction (state : BattleState) (sideIdx : Int) : BattleState :=
  state.modifyMon sideIdx (activeIdx state sideIdx 0) (clearVolatile volatileRecharging)

/-- A switch that was chosen: unlike a forced one it passes nothing on. -/
def handleSwitchAction (E : TurnEnv) (m : Mover) (s : Scene) : Scene :=
  let slot := m.attackerSlot.toNat
  let newSlot := Int32.ofInt m.action.switchToSlot
  let participants :=
    if m.sideIdx = 1 then s.expParticipants.modify slot fun _ => [] else s.expParticipants
  let state := cppApplySwitchOutReset E.entry s.state m.sideIdx (activeIdx s.state m.sideIdx slot)
  let state := state.setActives m.sideIdx (·.set slot newSlot)
  let state := state.modifyMon m.sideIdx newSlot startCounters
  { s with
    state := slotSwapped state m.sideIdx slot (enterBattle E.entry m.sideIdx)
    expParticipants := participants }

def executeActionBody (E : TurnEnv) (m : Mover) (s : Scene) : TurnScript Scene :=
  if m.action.moveSlot = -1 then pure { s with state := handleRechargeAction s.state m.sideIdx }
  else E.executeMove m s

def swapFront (state : BattleState) (sideIdx : Int) (pos : Nat) : BattleState :=
  if 0 < pos ∧ pos < (state.side sideIdx).activeIndices.toList.length then
    state.setActives sideIdx (·.swap 0 pos)
  else state

def withActiveSlotSwapped (sideIdx : Int) (pos : Nat) (f : Scene → TurnScript Scene) (s : Scene) :
    TurnScript Scene :=
  (f { s with state := swapFront s.state sideIdx pos }).bind fun s =>
    .done { s with state := swapFront s.state sideIdx pos }

def dispatchAction (E : TurnEnv) (m : Mover) (s : Scene) : TurnScript Scene :=
  if m.action.kind = actionSwitch then pure (handleSwitchAction E m s)
  else withActiveSlotSwapped m.sideIdx m.attackerSlot.toNat (executeActionBody E m) s

def cppExecuteAction (E : TurnEnv) (m : Mover) (s : Scene) : TurnScript Scene := do
  let s ← dispatchAction E m s
  let flushed ← TurnScript.ofFallible
    (cppFlushOpponentFaintExp E.toResidualEnv false (s.state, s.expParticipants))
  pure { s with state := flushed.1, expParticipants := flushed.2 }

end Execute

section Pivots

def askSlot (event : RngEvent) (candidates : List ExecAction) : TurnScript Int32 :=
  .ask event ((candidates.map ExecAction.switchToSlot).insertionSort (· ≤ ·)) fun a =>
    .done (Int32.ofInt a.chosen)

def Scene.bringIn (E : TurnEnv) (s : Scene) (si : Int) (teamIdx : Int32) : Scene :=
  { s with
    state := cppApplySwitch E.entry s.state si teamIdx 0
    ctx := { s.ctx with ejectPackSides := s.ctx.ejectPackSides ++ E.ejections s.state si teamIdx }
    expParticipants := if si = 1 then clearFirst s.expParticipants else s.expParticipants }

def entryEeCandidates (state : BattleState) (si : Int) (hpBeforeHazards : Int32) :
    List ExecAction :=
  let mon := activeMon state si
  let half := Int.tdiv mon.maxHp.toInt 2
  if mon.ability ≠ eeAbilityEe ∧ mon.ability ≠ eeAbilityWo then []
  else if mon.fainted = true ∨ mon.hp ≤ 0 then []
  else if half < hpBeforeHazards.toInt ∧ mon.hp.toInt ≤ half ∧ benchAvailable (state.side si) then
    benchSwitchActions state si 0
  else []

/-- The fuel bounds how often a newcomer may leave again. -/
def entryEeLoopOf (E : TurnEnv) (si : Int) : Nat → Int32 → Scene → TurnScript Scene
  | 0, _, _ => .fail (.runtimeError "entry loop out of fuel")
  | fuel + 1, hpBefore, s =>
    let candidates := entryEeCandidates s.state si hpBefore
    if candidates.isEmpty then .done s
    else
      (askSlot .forcedSwitch candidates).bind fun teamIdx =>
        let next := s.bringIn E si teamIdx
        (TurnScript.log (.forcedSwitch (if si = 0 then some teamIdx else none)
            (if si = 1 then some teamIdx else none))).bind fun _ =>
          entryEeLoopOf E si fuel ((s.state.side si).mon teamIdx).hp next

def Scene.replace (E : TurnEnv) (s : Scene) (si : Int) (teamIdx : Int32)
    (entry : Option TurnLogEntry) : TurnScript Scene :=
  let hpBefore := ((s.state.side si).mon teamIdx).hp
  let s := s.bringIn E si teamIdx
  let fuel := pivotMeasure s.state si hpBefore + 1
  match entry with
  | none => entryEeLoopOf E si fuel hpBefore s
  | some entry => (TurnScript.log entry).bind fun _ => entryEeLoopOf E si fuel hpBefore s

def forcedPivot (E : TurnEnv) (s : Scene) (si : Int) : TurnScript (Scene × Option Int32) :=
  let candidates := switchActions s.state si 0
  if candidates.isEmpty then pure (s, none)
  else do
    let teamIdx ← askSlot .forcedSwitch candidates
    let s ← s.replace E si teamIdx none
    pure (s, some (activeIdx s.state si 0))

def pendingReasons : List String := ["roar", "u_turn", "eject_button", "red_card", "emergency_exit"]

def phaze (E : TurnEnv) (pending : List PendingSwitch) (s : Scene) : TurnScript Scene :=
  match pending.find? (·.reason = "roar") with
  | none => pure s
  | some ps =>
    let si := ps.sideIdx
    let candidates := switchActions s.state si 0
    if (activeMon s.state si).ability = abSuctionCups ∧
        ¬ isMoldBreaker (activeMon s.state (1 - si)).ability then pure s
    else if candidates.isEmpty then pure s
    else do
      let teamIdx ← askSlot .roarTarget candidates
      s.replace E si teamIdx (some (.phaze si teamIdx))

def pivotIf (E : TurnEnv) (needed : Bool) (s : Scene) (si : Int) :
    TurnScript (Scene × Option Int32) :=
  if needed then forcedPivot E s si else pure (s, none)

def cppResolvePendingSwitches (E : TurnEnv) (pending : List PendingSwitch) (s : Scene) :
    TurnScript Scene :=
  let needs (si : Int) := pending.any fun ps => ps.reason ≠ "roar" && ps.sideIdx = si
  if pending.any fun ps => !pendingReasons.contains ps.reason then
    .fail (.runtimeError "unported: pending_switch")
  else do
    let s ← phaze E pending s
    if needs 0 || needs 1 then do
      let (s, p0) ← pivotIf E (needs 0) s 0
      let (s, p1) ← pivotIf E (needs 1) s 1
      TurnScript.log (.forcedSwitch p0 p1)
      pure s
    else pure s

end Pivots

section Begin

def cppFindMegaEntry (E : TurnEnv) (item : Int32) : Option MegaEntry :=
  E.megaTable.find? (·.item = item)

def cppIsPrimalOrb (item : Int32) : Bool := item == itemRedOrb || item == itemBlueOrb

def openForm (E : TurnEnv) (state : BattleState) (si : Int) : Option MegaEntry :=
  let mon := activeMon state si
  (cppFindMegaEntry E mon.item).filter fun e =>
    !(mon.isMega || (state.side si).megaUsed || mon.species != e.preSpecies)

def evolve (E : TurnEnv) (si : Int) (state : BattleState) (e : MegaEntry) : BattleState :=
  let state := E.formChange state si e.megaSpecies
  let state := state.modifyMon si (activeIdx state si 0) fun mon =>
    { mon with ability := e.megaAbility, isMega := true }
  E.entry.applyEntryEffects (state.setSide si { state.side si with megaUsed := true }) si

def primalReversion (E : TurnEnv) (state : BattleState) (si : Int) : BattleState :=
  if cppIsPrimalOrb (activeMon state si).item then
    ((openForm E state si).map (evolve E si state)).getD state
  else state

def megaSides (E : TurnEnv) (state : BattleState) (mega : Bool × Bool) : List Int :=
  let speed (si : Int) := effectiveSpeed (activeMon state si) (state.side si) state
  ([0, 1].filter fun si => ofSide mega si && (openForm E state si).isSome).insertionSort
    fun i j => if hasPseudoWeather state pwTrickRoom then speed i ≤ speed j else speed j ≤ speed i

def megaEvolution (E : TurnEnv) (state : BattleState) (si : Int) : BattleState :=
  ((cppFindMegaEntry E (activeMon state si).item).map (evolve E si state)).getD state

def leadEntry (E : TurnEnv) (state : BattleState) (si : Int) : BattleState :=
  let mon := activeMon state si
  if mon.turnsInBattle = 0 ∧ mon.fainted = false then E.entry.applyEntryEffects state si else state

def forceRecharge (state : BattleState) (si : Int) (a : ExecAction) : ExecAction :=
  if a.kind = actionMove ∧
      hasVolatile ((state.side si).mon (activeIdx state si a.sourceSlot.toNat))
        volatileRecharging then
    { makeMoveAction (-1) with sourceSlot := a.sourceSlot }
  else a

def committedParticipants (state : BattleState) : ExpParticipants :=
  if state.expParticipants.toList.isEmpty then
    state.side1.activeIndices.toList.map fun _ => []
  else state.expParticipants.toList.map fun set => set.members.toList.map fun i => i.toInt.toNat

def activesOf (state : BattleState) (si : Int) : List (Int × Int32) :=
  (state.side si).activeIndices.toList.map fun i => (si, i)

def startOfTurn (E : TurnEnv) (mega : Bool × Bool) (state : BattleState) : BattleState :=
  let state :=
    { state with
      side0 := { state.side0 with allyFaintedLastTurn := false }
      side1 := { state.side1 with allyFaintedLastTurn := false } }
  let state := E.terrainSeeds state
  let state := if state.turnNumber = 1 then [0, 1].foldl (leadEntry E) state else state
  let state := [0, 1].foldl (primalReversion E) (E.turnStartEffects state)
  (megaSides E state mega).foldl (megaEvolution E) state

def beginTurn (E : TurnEnv) (before : BattleState) (submitted : List ExecAction × List ExecAction)
    (mega : Bool × Bool) : TurnScript TurnLoop := do
  let state := startOfTurn E mega before
  let actions := (submitted.1.map (forceRecharge state 0), submitted.2.map (forceRecharge state 1))
  let built ← cppBuildPendingEntries E.moves state (actions.1.map toActionC)
    (actions.2.map toActionC) E.turnLuck.1 E.turnLuck.2
  pure
    { state := { built.1 with turnOrder := .empty }
      expParticipants := committedParticipants before
      turnStartActive := activesOf before 0 ++ activesOf before 1
      pending := built.2
      submitted, actions }

end Begin

section Queue

def Scene.drain (s : Scene) : List PendingSwitch × Scene :=
  (s.pending ++ s.ctx.ejectPackSides.map fun si => ⟨si, "eject_button"⟩,
    { s with ctx := { s.ctx with ejectPackSides := [] }, pending := [] })

def settlePending (E : TurnEnv) (s : Scene) : TurnScript Scene :=
  let drained := s.drain
  if drained.1.isEmpty then pure drained.2 else cppResolvePendingSwitches E drained.1 drained.2

def fallAsleep (mon : PokemonState) : PokemonState :=
  if mon.fainted = false ∧ mon.status = statusNone then { mon with status := statusSleep } else mon

def failMove (mon : PokemonState) : PokemonState := { mon with lastMoveFailed := true }

def TurnLoop.modifyMover (l : TurnLoop) (e : Entry) (f : PokemonState → PokemonState) : TurnLoop :=
  { l with
    state := l.state.modifyMon e.sideIdx (activeIdx l.state e.sideIdx e.sourceSlot.toNat) f }

def TurnLoop.scene (l : TurnLoop) : Scene where
  state := l.state
  ctx := l.ctx
  expParticipants := trackPresence l.state l.expParticipants

def TurnLoop.after (l : TurnLoop) (s : Scene) : TurnLoop :=
  { l with state := s.state, ctx := s.ctx, expParticipants := s.expParticipants }

def TurnLoop.oppAction (l : TurnLoop) (e : Entry) : Option OppAction :=
  (ofSide l.actions (1 - e.sideIdx)).head?.map fun a => ⟨a.kind, a.moveSlot, a.moveOverride⟩

def performAction (E : TurnEnv) (e : Entry) (l : TurnLoop) (action : ExecAction)
    (asleep : Bool) : TurnScript TurnLoop := do
  let s ← cppExecuteAction E ⟨e.sideIdx, action, e.sourceSlot, l.oppAction e⟩ l.scene
  let l := l.after s
  let l := if asleep then l.modifyMover e fallAsleep else l
  let s ← settlePending E { s with state := l.state }
  pure (l.after s)

/-- A move that calls another: the answer has to be one of its options. Whoever talks in its sleep
is awake for the move it calls. -/
def calledMove (E : TurnEnv) (e : Entry) (l : TurnLoop) (active : PokemonState)
    (action : ExecAction) (usedMove : Int32) : TurnScript (TurnLoop × Bool) :=
  let options :=
    if usedMove = moveMetronome then metronomeOptions E.moves else sleepTalkOptions active
  if options.isEmpty then pure (l.modifyMover e failMove, false)
  else
    .ask (if usedMove = moveMetronome then .metronomeMove else .sleepTalkMove) options fun a =>
      if a.chosen ∈ options then
        let sub : ExecAction :=
          { kind := actionMove, moveSlot := action.moveSlot, moveOverride := a.chosen,
            sourceSlot := e.sourceSlot }
        let asleep := usedMove = moveSleepTalk && active.status = statusSleep
        (performAction E e (if asleep then l.modifyMover e Effects.cureStatus else l) sub
            asleep).bind
          fun l => .done (l, true)
      else .done (l, false)

def useMove (E : TurnEnv) (e : Entry) (l : TurnLoop) (active : PokemonState)
    (action : ExecAction) : TurnScript (TurnLoop × Bool) :=
  let usedMove :=
    if action.kind = actionMove ∧ 0 ≤ action.moveSlot then moveIdAt active action.moveSlot else -1
  if (usedMove = moveMetronome ∨ usedMove = moveSleepTalk) ∧
      active.chargingMoveSlot.toInt ≠ action.moveSlot then
    calledMove E e l active action usedMove
  else if usedMove = moveAssist then pure (l.modifyMover e failMove, false)
  else (performAction E e l action false).bind fun l => .done (l, true)

def TurnLoop.recordMover (l : TurnLoop) (e : Entry) : TurnLoop :=
  { l with
    state := { l.state with turnOrder := l.state.turnOrder.append [Int32.ofInt e.sideIdx] } }

/-- The mover acts, unless it has fainted or flinched. Says whether the region's answers are to be
used up by then. -/
def moverStep (E : TurnEnv) (e : Entry) (l : TurnLoop) : TurnScript (TurnLoop × Bool) :=
  let active := activeSlot l.state e.sideIdx e.sourceSlot
  if active.fainted then pure (l, false)
  else if hasVolatile active volatileFlinched then
    pure (l.modifyMover e (clearVolatile volatileFlinched), false)
  else
    match (ofSide l.actions e.sideIdx).find? (·.sourceSlot = e.sourceSlot) with
    | none => .fail (.runtimeError "cpp_run_one_turn: missing action for source_slot")
    | some action => useMove E e (l.recordMover e) active action

def queueStep (E : TurnEnv) (l : TurnLoop) : TurnScript (TurnLoop × Bool) :=
  (cppSelectNextAction E.moves l.state l.pending).bind fun selected =>
    moverStep E selected.1 { l with pending := selected.2 }

end Queue

section Finish

def clearFallen (state : BattleState) (participants : ExpParticipants) : ExpParticipants :=
  let actives := state.side1.activeIndices.toList
  participants.mapIdx fun i set =>
    match actives[i]? with
    | none => set
    | some ti =>
      if 0 ≤ ti.toInt ∧ ti.toInt < state.side1.team.toList.length ∧
          (state.side1.mon ti).fainted ∧ ti ∉ actives.take i then []
      else set

def commitParticipants (participants : ExpParticipants) :
    InlineVec ExpParticipantSet battleExpParticipantOuterCap :=
  InlineVec.empty.append (participants.map fun set =>
    { members := InlineVec.empty.append ((set.insertionSort (· ≤ ·)).dedup.map fun (i : Nat) =>
        Int32.ofInt i) })

def residualPivots (E : TurnEnv) (switches : List PendingSwitch) (s : Scene) : TurnScript Scene :=
  if switches.isEmpty then pure s
  else do
    let s ← switches.foldlM (fun s ps => (forcedPivot E s ps.sideIdx).bind fun r => .done r.1) s
    let front (si : Int) :=
      if switches.any (·.sideIdx = si) then some (activeIdx s.state si 0) else none
    TurnScript.log (.forcedSwitch (front 0) (front 1))
    pure s

def endTurn (E : TurnEnv) (s : Scene) : BattleState :=
  let participants := clearFallen s.state s.expParticipants
  let state := cppApplyEotWeatherTerrain (cppApplyEotVolatileClear (E.endForms s.state))
  { state with
    prevTurnOrder := state.turnOrder
    turnNumber := state.turnNumber + 1
    expParticipants := commitParticipants participants }

def finishTurn (E : TurnEnv) (l : TurnLoop) : TurnScript BattleState := do
  let ctx : ResidualCtx :=
    { ctxPresent := true, turnStartActiveNull := false, turnStartActive := l.turnStartActive,
      expParticipants := l.expParticipants }
  let (state, switches) ← TurnScript.ofFallible (cppApplyResiduals E.toResidualEnv ctx l.state [])
  let s ← residualPivots E switches ⟨state, l.ctx, l.expParticipants, []⟩
  pure (endTurn E s)

end Finish

section Driver

inductive TurnPoint
  | start (state : BattleState) (submitted : List ExecAction × List ExecAction)
      (mega : Bool × Bool)
  | moving (l : TurnLoop)

def TurnPoint.resumed : TurnPoint → TurnPoint
  | start state submitted mega => start state submitted mega
  | moving l => moving { l with ctx := {}, actions := l.submitted }

def turnRegion (E : TurnEnv) : TurnPoint → TurnScript (Onward TurnPoint BattleState)
  | .start state submitted mega =>
    (beginTurn E state submitted mega).bind fun l => .done (.goOn (.moving l) false)
  | .moving l =>
    if l.pending.isEmpty then (finishTurn E l).bind fun state => .done (.finish state)
    else (queueStep E l).bind fun r => .done (.goOn (.moving r.1) r.2)

def turnRoutine (E : TurnEnv) :
    Routine Command RngEvent OracleAnswer Fault TurnPoint BattleState where
  region := turnRegion E
  restored := TurnPoint.resumed
  restored_restored p := by cases p <;> rfl
  leftover := .runtimeError "oracle transient answers not fully consumed on region completion"

end Driver

end Engine

end NuzlockeSolver
