import Mathlib.Data.List.Sort
import Mathlib.Data.List.Dedup
import NuzlockeSolver.Oracle.Turn

/-!
# The transition oracle

The oracle enumerates the outcomes of one turn by replaying it. Each call of `dfs` runs the turn
with the outcomes of its prefix forced, finds the first branching draw beyond the prefix in the
log, and calls itself once for each option of that draw.
-/

namespace NuzlockeSolver

def oracleFault (what : String) : Fault := .runtimeError ("TransitionOracle: " ++ what)

def eventFault (what : String) (event : RngEvent) : Fault :=
  oracleFault (what ++ toString event.code)

def tolerance : Rat := 1 / 10 ^ 12

namespace RngEntry

def saturated (e : RngEntry) : Bool := |e.pChosen - 1| < tolerance

def bumped (e : RngEntry) : Bool := tolerance < |e.pChosen - 1|

end RngEntry

inductive CollapseMode
  | none
  | pessimal
  | coarse
deriving DecidableEq, Repr

inductive OrderingHint
  | natural
  | adverseFirst
deriving DecidableEq, Repr

/-- A probability of `none` is the NaN of a collapsed option. -/
abbrev BranchOption := Int × Option Rat

/-- The first roll whose damage no other roll beats under `better`. -/
def extremeRoll (better : Int → Int → Bool) (dmg : DmgByRoll) : Fin 16 :=
  (List.finRange 16).foldl (fun best roll => if better (dmg roll) (dmg best) then roll else best) 0

def extremeOption (better : Int → Int → Bool) : Int → List Int → Int :=
  List.foldl fun best o => if better o best then o else best

def worse (oppAttacks : Bool) (a b : Int) : Bool :=
  if oppAttacks then b < a else a < b

def collapseRule (e : RngEntry) : Option Int :=
  let oppAttacks : Bool := e.attackerSide = 1
  match e.event with
  | .damageRoll =>
    match e.dmgByRoll with
    | some dmg =>
      if e.optionsCount = 16 then some ((extremeRoll (worse oppAttacks) dmg : Nat) : Int) else none
    | none => none
  | .crit => if e.options.length < 2 then none else some (outcomeOf oppAttacks)
  | .multiHitCount =>
    match e.options with
    | [] => none
    | o :: rest => some (extremeOption (worse oppAttacks) o rest)
  | .accuracy => if oppAttacks then some 1 else none
  | _ => none

def pessimalOptions (e : RngEntry) : Option (List BranchOption) :=
  match collapseRule e with
  | none => none
  | some worst =>
    let valid :=
      if e.event = .damageRoll then e.optionsCount = 16 ∧ 0 ≤ worst ∧ worst < 16
      else worst ∈ e.options
    if valid then some [(worst, none)] else none

def coarseOptions (e : RngEntry) : Option (List BranchOption) :=
  match e.dmgByRoll with
  | some dmg =>
    if e.event = .damageRoll ∧ e.optionsCount = 16 then
      let minRoll := extremeRoll (fun a b => a < b) dmg
      let maxRoll := extremeRoll (fun a b => b < a) dmg
      if minRoll = maxRoll then some [((minRoll : Nat), none)]
      else some [((minRoll : Nat), none), ((maxRoll : Nat), none)]
    else none
  | none => none

def damages (dmg : DmgByRoll) : List Int :=
  (((List.finRange 16).map dmg).dedup).insertionSort (· ≤ ·)

def rollsOf (dmg : DmgByRoll) (d : Int) : List (Fin 16) :=
  (List.finRange 16).filter fun roll => dmg roll = d

def aggregatedRolls (dmg : DmgByRoll) : List (Int × Rat) :=
  (damages dmg).map fun d =>
    ((((rollsOf dmg d).headD 0 : Fin 16) : Nat), (rollsOf dmg d).length / 16)

def uniformOptions (options : List Int) (count : Int) : List (Int × Rat) :=
  options.map fun v => (v, 1 / (count : Rat))

def multiHitOptions : List Int → List (Int × Rat)
  | [2, 5] => [(2, 35 / 100), (3, 35 / 100), (4, 15 / 100), (5, 15 / 100)]
  | [mn, mx] =>
    uniformOptions (intRange mn mx) (mx - mn + 1)
  | options => [(options.headD 0, 1)]

def expandExact (e : RngEntry) (aggregateDamageRolls : Bool) : Except Fault (List (Int × Rat)) :=
  if e.optionsTruncated then
    if e.event = .psywaveRoll then .ok ((upTo 101).map fun k => (k, psywaveProb k))
    else .error (eventFault "truncated Cat-B entry for unmodeled event " e.event)
  else if e.pChosen < 0 then .error (eventFault "Cat-B entry has p_chosen==-1 for event " e.event)
  else if e.options = [] then .error (eventFault "Cat-B entry has empty options for event " e.event)
  else if e.options.length = 2 ∧ e.event.isBool then
    .ok (e.options.map fun v => (v, if v = e.chosen then e.pChosen else 1 - e.pChosen))
  else
    match e.event with
    | .bindingDuration | .rampageDuration => .ok (e.options.map fun v => (v, 1 / 2))
    | .damageRoll =>
      if e.optionsCount = 16 ∧ aggregateDamageRolls then
        match e.dmgByRoll with
        | some dmg => .ok (aggregatedRolls dmg)
        | none =>
          .error (oracleFault
            "DAMAGE_ROLL aggregation is ON but has_dmg_by_roll=0 — annotation missing from damage.cpp")
      else .ok (uniformOptions (upTo e.optionsCount) e.optionsCount)
    | .multiHitCount => .ok (multiHitOptions e.options)
    | _ => .error (eventFault "unmodeled Cat-B event id=" e.event)

def expandCatbOptions (e : RngEntry) (aggregateDamageRolls : Bool) (collapse : CollapseMode) :
    Except Fault (List BranchOption) :=
  let collapsed :=
    match collapse with
    | .none => none
    | .pessimal => pessimalOptions e
    | .coarse => coarseOptions e
  match collapsed with
  | some options => .ok options
  | none => (expandExact e aggregateDamageRolls).map (List.map fun (v, p) => (v, some p))

def checkSum (event : RngEvent) (options : List BranchOption) : Except Fault Unit :=
  if options.all (·.2.isSome) ∧ 1 / 10 ^ 9 < |(options.map fun o => o.2.getD 0).sum - 1| then
    .error (eventFault "Cat-B branch probs don't sum to 1 for event " event)
  else .ok ()

def orderOptions (hint : OrderingHint) (event : RngEvent) (options : List BranchOption) :
    List BranchOption :=
  if hint = .adverseFirst then
    match event with
    | .damageRoll | .accuracy | .multiHitCount => options.insertionSort fun a b => a.1 ≤ b.1
    | .crit => options.insertionSort fun a b => b.1 ≤ a.1
    | _ => options
  else options

def catAProbSingle (event : RngEvent) (options : List Int) (chosenIdx : Nat) :
    Except Fault Rat :=
  match event with
  | .speedTie =>
    if options.length = 2 then .ok (1 / 2)
    else
      .error (oracleFault ("SPEED_TIE expected 2 options, got " ++ toString options.length))
  | .effectSporeWhich =>
    if options.length = 3 then
      match chosenIdx with
      | 0 => .ok (11 / 30)
      | 1 => .ok (10 / 30)
      | 2 => .ok (9 / 30)
      | _ => .error (oracleFault "EFFECT_SPORE_WHICH bad index")
    else .error (oracleFault "EFFECT_SPORE_WHICH expected 3 options")
  | .triAttackStatus => .ok (1 / 3)
  | .metronomeMove | .sleepTalkMove | .starfBerryStat | .acupressureStat =>
    if options = [] then .error (oracleFault "Cat-A uniform event has empty options")
    else .ok (1 / options.length)
  | .moodyStats => .ok (1 / 7)
  | .actionSelect | .forcedSwitch | .postFaintSwitch | .roarTarget =>
    .error (.logicError
      ("TransitionOracle: impossible Cat-A event in 1v1 phase 1: " ++ toString event.code))
  | _ => .error (eventFault "unmodeled Cat-A event: " event)

inductive Channel
  | catB
  | catA
deriving DecidableEq, Repr

structure PrefixEntry where
  channel : Channel
  event : RngEvent
  occurrence : Nat := 0
  value : Int
  prob : Option Rat
  value2 : Int := -1
deriving DecidableEq, Repr

def PrefixEntry.override (pe : PrefixEntry) : OracleAnswer :=
  match pe.event with
  | .speedTie => .order [(pe.value / 10, pe.value % 10), (1 - pe.value / 10, 0)]
  | .moodyStats => .pick pe.value pe.value2
  | _ => .pick pe.value (-1)

def PrefixEntry.injected (pe : PrefixEntry) : Injected :=
  if pe.event.isBool then CategoryBInjection.pushBool pe.event pe.occurrence (pe.value ≠ 0)
  else CategoryBInjection.pushInt pe.event pe.occurrence pe.value

abbrev Path := List PrefixEntry

def buildOverrides (path : Path) (event : RngEvent) : List OracleAnswer :=
  (path.filter fun pe => pe.channel = .catA ∧ pe.event = event).map (·.override)

def buildCatbInjection (path : Path) : CategoryBInjection :=
  (path.filter fun pe => pe.channel = .catB).map (·.injected)

def prefixProb (path : Path) : Option Rat :=
  path.foldl (fun p pe => p.bind fun x => pe.prob.map fun y => x * y) (some 1)

def channelsOf (path : Path) : Channels where
  injection := buildCatbInjection path
  answers := buildOverrides path

/-- The index of the first branching draw after `count` unsaturated ones. -/
def nextBranchIdx : List RngEntry → Nat → Option Nat
  | [], _ => none
  | e :: log, count =>
    if ¬ e.event.isCatB ∨ e.saturated then (nextBranchIdx log count).map (· + 1)
    else
      match count with
      | 0 => some 0
      | count + 1 => (nextBranchIdx log count).map (· + 1)

def occOfBranch (log : List RngEntry) (idx : Nat) (event : RngEvent) : Nat :=
  ((log.take idx).filter fun e => e.event = event ∧ e.event.isCatB ∧ e.bumped).length

structure OracleConfig where
  maxLeaves : Nat := 1000000
  aggregateDamageRolls : Bool := true
  collapse : CollapseMode := .none
  hint : OrderingHint := .natural

/-- A leaf as the emit and debug callbacks see it. -/
structure Leaf (σ : Type) where
  child : σ
  prob : Option Rat
  aiAction : ExecAction
  aiActionProb : Rat
  path : Path

/-- One expansion of one AI action; `emit` answers whether to go on, given the leaves so far. -/
structure DfsEnv (σ : Type) where
  turn : Turn σ
  oppAction : ExecAction
  oppProb : Rat
  emit : List (Leaf σ) → Bool
  cfg : OracleConfig

structure DfsState (σ : Type) where
  emitted : List (Leaf σ) := []
  leaves : Nat := 0
  turnExecs : Nat := 0
  aborted : Bool := false
  budgetExceeded : Bool := false

namespace DfsState

variable {σ : Type}

def stopped (S : DfsState σ) : Bool := S.aborted || S.budgetExceeded

def emitLeaf (S : DfsState σ) (E : DfsEnv σ) (leaf : Leaf σ) : DfsState σ :=
  if E.cfg.maxLeaves ≤ S.leaves then { S with budgetExceeded := true }
  else
    { S with
      emitted := S.emitted ++ [leaf]
      leaves := S.leaves + 1
      aborted := !E.emit (S.emitted ++ [leaf]) }

def countExec (S : DfsState σ) : DfsState σ := { S with turnExecs := S.turnExecs + 1 }

end DfsState

def maxPrefixDepth : Nat := 128

def forEach {α σ : Type} (body : α → DfsState σ → Except Fault (DfsState σ)) :
    List α → DfsState σ → Except Fault (DfsState σ)
  | [], S => .ok S
  | a :: rest, S => do
    let S ← body a S
    if S.stopped then .ok S else forEach body rest S

def pauseEntries (event : RngEvent) (options : List Int) : Except Fault (List PrefixEntry) :=
  if event = .moodyStats then
    if options.length = 7 then
      .ok (options.flatMap fun boost =>
        ((upTo 7).filter (· ≠ boost)).map fun drop =>
          { channel := .catA, event, value := boost, prob := some (1 / 7 * (1 / 6)),
            value2 := drop })
    else .error (oracleFault "MOODY_STATS expected 7 options")
  else
    options.zipIdx.mapM fun (v, idx) => do
      let p ← catAProbSingle event options idx
      .ok { channel := .catA, event, value := v, prob := some p }

def branchEntries (cfg : OracleConfig) (log : List RngEntry) (idx : Nat) (e : RngEntry) :
    Except Fault (List PrefixEntry) := do
  let options ← expandCatbOptions e cfg.aggregateDamageRolls cfg.collapse
  checkSum e.event options
  .ok (((orderOptions cfg.hint e.event options).filter fun o => o.2 ≠ some 0).map fun o =>
    { channel := .catB, event := e.event, occurrence := occOfBranch log idx e.event,
      value := o.1, prob := o.2 })

def leafProb {σ : Type} (E : DfsEnv σ) (path : Path) : Option Rat :=
  if E.cfg.collapse = .none then (prefixProb path).map (· * E.oppProb) else none

def DfsEnv.leaf {σ : Type} (E : DfsEnv σ) (path : Path) (child : σ) : Leaf σ :=
  { child, prob := leafProb E path, aiAction := E.oppAction, aiActionProb := E.oppProb, path }

/-- `room` is one more than the number of entries the prefix may still grow by. -/
def DfsEnv.dfs {σ : Type} (E : DfsEnv σ) : Nat → Path → Nat → DfsState σ → Except Fault (DfsState σ)
  | 0, _, _, S =>
    if S.stopped then .ok S else .error (oracleFault "prefix depth exceeded 128")
  | room + 1, path, catbCount, S =>
    if S.stopped then .ok S
    else do
      let (result, c) ← E.turn.run (channelsOf path)
      let S := S.countExec
      if c.injection.all (·.consumed) then
        match result with
        | .paused event options => do
          let entries ← pauseEntries event options
          forEach (fun pe => E.dfs room (path ++ [pe]) catbCount) entries S
        | .finished child =>
          match nextBranchIdx c.log catbCount with
          | none => .ok (S.emitLeaf E (E.leaf path child))
          | some idx =>
            match c.log[idx]? with
            | none => .error (oracleFault "log index out of range")
            | some e => do
              let entries ← branchEntries E.cfg c.log idx e
              forEach (fun pe => E.dfs room (path ++ [pe]) (catbCount + 1)) entries S
      else .error (oracleFault "prefix divergence (verify_exhausted)")

structure ActiveView where
  fainted : Bool
  hp : Int
  ability : Int
  baseAbility : Int

def abilityQuickDraw : Int := 259

structure StateView where
  player : List ActiveView
  opponent : List ActiveView

def checkActive (who : String) (m : ActiveView) : Except Fault Unit :=
  if m.fainted ∨ m.hp ≤ 0 then .error (oracleFault (who ++ " active is fainted/HP=0"))
  else if m.ability = abilityQuickDraw ∨ m.baseAbility = abilityQuickDraw then
    .error (oracleFault ("Quick Draw on " ++ who ++ " active (phase 1 exclusion)"))
  else .ok ()

def checkPreconditions (v : StateView) (playerAction : ExecAction) : Except Fault Unit :=
  match v.player, v.opponent with
  | [p0], [p1] => do
    checkActive "player" p0
    checkActive "opponent" p1
    if playerAction.kind = 0 ∧ playerAction.moveSlot ≠ -2 ∧
        (playerAction.moveSlot < 0 ∨ 3 < playerAction.moveSlot) then
      .error (oracleFault "player move_slot out of range")
    else .ok ()
  | _, _ => .error (oracleFault "phase 1 requires exactly 1 active per side")

/-- What a step reads of the engine for its state and player action. -/
structure OracleEnv (σ : Type) where
  view : StateView
  playerAction : ExecAction
  aiProbs : List (ExecAction × Rat)
  turn : ExecAction → Turn σ
  emit : List (Leaf σ) → Bool
  cfg : OracleConfig

structure StepStats where
  leaves : Nat := 0
  turnExecutions : Nat := 0
  aborted : Bool := false
  budgetExceeded : Bool := false
deriving DecidableEq, Repr

def checkAiProbs (aiProbs : List (ExecAction × Rat)) : Except Fault Unit :=
  if aiProbs = [] then .error (oracleFault "AI action distribution is empty")
  else if 1 / 10 ^ 9 < |(aiProbs.map (·.2)).sum - 1| then
    .error (oracleFault "AI action probs don't sum to 1")
  else .ok ()

def OracleEnv.dfsEnv {σ : Type} (O : OracleEnv σ) (ap : ExecAction × Rat) : DfsEnv σ where
  turn := O.turn ap.1
  oppAction := ap.1
  oppProb := ap.2
  emit := O.emit
  cfg := O.cfg

def stepLoop {σ : Type} (O : OracleEnv σ) : List (ExecAction × Rat) → List (Leaf σ) × StepStats →
    Except Fault (List (Leaf σ) × StepStats)
  | [], acc => .ok acc
  | ap :: rest, (emitted, stats) =>
    if stats.aborted ∨ stats.budgetExceeded then .ok (emitted, stats)
    else if ap.2 = 0 then stepLoop O rest (emitted, stats)
    else do
      let S ← (O.dfsEnv ap).dfs (maxPrefixDepth + 1) [] 0 { emitted }
      stepLoop O rest (S.emitted,
        { leaves := stats.leaves + S.leaves
          turnExecutions := stats.turnExecutions + S.turnExecs
          aborted := S.aborted
          budgetExceeded := S.budgetExceeded })

def step {σ : Type} (O : OracleEnv σ) : Except Fault (List (Leaf σ) × StepStats) := do
  checkPreconditions O.view O.playerAction
  checkAiProbs O.aiProbs
  stepLoop O O.aiProbs ([], {})

end NuzlockeSolver
