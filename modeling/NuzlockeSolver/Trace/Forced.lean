import Mathlib.Data.Int.Bitwise
import NuzlockeSolver.Engine.Json
import NuzlockeSolver.Trace.Golden

/-!
# Forced traces

A golden trace is converted to a payload from which the engine builds a forced trace: a map from
packed keys of turn, event and occurrence to outcomes, and a queue of answers. A replay takes every
outcome and every answer from it and checks at the end of the game that nothing is left.
-/

namespace NuzlockeSolver.Trace

structure ForcedOutcome where
  kind : Int
  i : Int64 := 0
  d : ℚ := 0
  b : Bool := false
  consumed : Bool := false

def ForcedOutcome.withConsumed (fo : ForcedOutcome) (consumed : Bool) : ForcedOutcome :=
  { fo with consumed := consumed }

structure ForcedAnswer where
  turn : Int32
  event : Int32
  side : Int32
  i0 : Int32
  i1 : Int32
  actionsP0 : Json := .null
  actionsP1 : Json := .null

structure ForcedTrace where
  rng : List (UInt64 × ForcedOutcome) := []
  nextOcc : UInt64 → Int := fun _ => 0
  answers : List ForcedAnswer := []
  cursor : Nat := 0

def mismatch (what : String) : JsonFault := .decode ("forced_trace_mismatch: " ++ what)

def packKey (turn : Int32) (event occurrence : Nat) : UInt64 :=
  turn.toInt64.toUInt64 <<< 24 ||| UInt64.ofNat event <<< 16 ||| UInt64.ofNat occurrence

def occKey (turn : Int32) (event : Nat) : UInt64 :=
  turn.toInt64.toUInt64 <<< 8 ||| UInt64.ofNat event

namespace ForcedTrace

def key (turn : Int32) (event occurrence : Int) : Except JsonFault UInt64 :=
  if occurrence < 0 ∨ 0xFFFF < occurrence then
    .error (mismatch s!"occurrence out of 0-65535 range: {occurrence}")
  else if event < 0 ∨ 0xFF < event then
    .error (mismatch s!"event out of 0-255 range: {event}")
  else .ok (packKey turn event.toNat occurrence.toNat)

def place (turn : Int32) (event : RngEvent) (occurrence : Int) : String :=
  "turn=" ++ toString turn.toInt ++ " event=" ++ toString event.code ++ " occ=" ++
    toString occurrence

def markConsumed (k : UInt64) (e : UInt64 × ForcedOutcome) : UInt64 × ForcedOutcome :=
  if e.1 = k then (e.1, e.2.withConsumed true) else e

def catb (ft : ForcedTrace) (turn : Int32) (event : RngEvent) (occurrence : Int) :
    Except JsonFault (ForcedOutcome × ForcedTrace) := do
  let k ← key turn event.code occurrence
  match ft.rng.lookup k with
  | none => .error (mismatch ("missing rng outcome " ++ place turn event occurrence))
  | some fo =>
    if fo.consumed then
      .error (mismatch ("rng outcome already consumed " ++ place turn event occurrence))
    else .ok (fo.withConsumed true, { ft with rng := ft.rng.map (markConsumed k) })

def nextAnswer (ft : ForcedTrace) (expectedTurn : Int32) (expectedEvent : RngEvent)
    (expectedSide : Int32) : Except JsonFault (ForcedAnswer × ForcedTrace) :=
  match ft.answers[ft.cursor]? with
  | none =>
    .error (mismatch ("answer stream exhausted (cursor=" ++ toString ft.cursor ++ ", total=" ++
      toString ft.answers.length ++ ") expected turn=" ++ toString expectedTurn.toInt ++
      " event=" ++ toString expectedEvent.code))
  | some a =>
    let cursor := " (cursor=" ++ toString ft.cursor ++ ")"
    if a.turn ≠ expectedTurn then
      .error (mismatch ("answer turn mismatch: expected " ++ toString expectedTurn.toInt ++
        " found " ++ toString a.turn.toInt ++ cursor))
    else if a.event.toInt ≠ expectedEvent.code then
      .error (mismatch ("answer event mismatch: expected " ++ toString expectedEvent.code ++
        " found " ++ toString a.event.toInt ++ cursor))
    else if expectedSide ≠ -1 ∧ a.side ≠ expectedSide then
      .error (mismatch ("answer side mismatch: expected " ++ toString expectedSide.toInt ++
        " found " ++ toString a.side.toInt ++ cursor))
    else .ok (a, { ft with cursor := ft.cursor + 1 })

def force (kind : Int) (expected : String) (ft : ForcedTrace) (turn : Int32) (ev : RngEvent) :
    Except JsonFault (ForcedOutcome × ForcedTrace) := do
  let occ := ft.nextOcc (occKey turn ev.code)
  let counted := { ft with
    nextOcc := Function.update ft.nextOcc (occKey turn ev.code) (occ + 1) }
  let r ← counted.catb turn ev occ
  if r.1.kind ≠ kind then
    .error (mismatch ("kind mismatch (expected " ++ expected ++ ") " ++ place turn ev occ ++
      " got kind=" ++ toString r.1.kind))
  else .ok r

def forceBool (ft : ForcedTrace) (turn : Int32) (ev : RngEvent) :
    Except JsonFault (Bool × ForcedTrace) :=
  (force 2 "bool=2" ft turn ev).map fun r => (r.1.b, r.2)

def forceDouble (ft : ForcedTrace) (turn : Int32) (ev : RngEvent) :
    Except JsonFault (ℚ × ForcedTrace) :=
  (force 1 "double=1" ft turn ev).map fun r => (r.1.d, r.2)

def forceInt (ft : ForcedTrace) (turn : Int32) (ev : RngEvent) :
    Except JsonFault (Int64 × ForcedTrace) :=
  (force 0 "int=0" ft turn ev).map fun r => (r.1.i, r.2)

def leftoverAnswers (ft : ForcedTrace) : Nat := ft.answers.length - ft.cursor

def leftoverRng (ft : ForcedTrace) : Nat := ft.rng.countP fun kv => !kv.2.consumed

def verifyExhausted (ft : ForcedTrace) : Except JsonFault Unit :=
  if 0 < ft.leftoverAnswers ∨ 0 < ft.leftoverRng then
    .error (mismatch ("trace not fully consumed at game end: " ++ toString ft.leftoverAnswers ++
      " answer(s) remaining, " ++ toString ft.leftoverRng ++ " rng entry/entries unconsumed"))
  else .ok ()

end ForcedTrace

def fieldAt (j : Json) (k : String) : Except JsonFault Json :=
  match j.get? k with
  | none => .error (.typeError ("key not found: " ++ k))
  | some v => .ok v

def entriesAt (j : Json) (k : String) : List Json := ((j.get? k).map Json.elems).getD []

def valueInt (j : Json) (k : String) (default : Int32) : Except JsonFault Int32 :=
  match j.get? k with
  | none => .ok default
  | some v => v.getInt32

def outcomeFromJson (outcome : Json) : Except JsonFault ForcedOutcome :=
  match outcome with
  | .bool b => .ok { kind := 2, b := b }
  | .int n => .ok { kind := 0, i := Int64.ofInt n }
  | _ => outcome.getDouble.map fun d => { kind := 1, d := d }

def addRngEntry (rng : List (UInt64 × ForcedOutcome)) (entry : Json) :
    Except JsonFault (List (UInt64 × ForcedOutcome)) := do
  let turn ← (← fieldAt entry "turn").getInt32
  let event ← (← fieldAt entry "event").getInt32
  let occurrence ← (← fieldAt entry "occurrence").getInt32
  let k ← ForcedTrace.key turn event.toInt occurrence.toInt
  if (rng.lookup k).isSome then
    .error (mismatch ("duplicate rng entry turn=" ++ toString turn.toInt ++ " event=" ++
      toString event.toInt ++ " occ=" ++ toString occurrence.toInt))
  else do
    let fo ← outcomeFromJson (← fieldAt entry "outcome")
    .ok (rng ++ [(k, fo)])

def answerFromJson (entry : Json) : Except JsonFault ForcedAnswer := do
  let turn ← (← fieldAt entry "turn").getInt32
  let event ← (← fieldAt entry "event").getInt32
  let side ← valueInt entry "side" (-1)
  let i0 ← valueInt entry "i0" (-1)
  let i1 ← valueInt entry "i1" (-1)
  .ok { turn := turn, event := event, side := side, i0 := i0, i1 := i1,
        actionsP0 := (entry.get? "actions_p0").getD .null,
        actionsP1 := (entry.get? "actions_p1").getD .null }

def forcedTraceFromJson (j : Json) : Except JsonFault ForcedTrace := do
  let rng ← (entriesAt j "rng").foldlM addRngEntry []
  let answers ← (entriesAt j "answers").mapM answerFromJson
  .ok { rng := rng, answers := answers }

def valueBool (j : Json) (k : String) (default : Bool) : Except JsonFault Bool :=
  match j.get? k with
  | none => .ok default
  | some v => v.getBool

def cppActionFromJson (aj : Json) : Except JsonFault ExecAction := do
  let kind ← valueInt aj "kind" 0
  let moveSlot ← valueInt aj "move_slot" (-1)
  let moveOverride ← valueInt aj "move_override" (-1)
  let switchToSlot ← valueInt aj "switch_to_slot" (-1)
  let targetSide ← valueInt aj "target_side" (-1)
  let targetSlot ← valueInt aj "target_slot" 0
  let sourceSlot ← valueInt aj "source_slot" 0
  let mega ← valueBool aj "mega" false
  .ok ⟨kind.toInt, moveSlot.toInt, moveOverride.toInt, switchToSlot.toInt, targetSide.toInt,
    targetSlot.toInt, sourceSlot.toInt, mega⟩

def sourced (actions : List ExecAction) : List ExecAction :=
  actions.mapIdx fun i a => { a with sourceSlot := i }

def forcedActions (fa : ForcedAnswer) : Except JsonFault (List ExecAction × List ExecAction) :=
  if fa.actionsP0.isNull ∨ fa.actionsP1.isNull then
    .error (mismatch "one-sided ACTION_SELECT unsupported")
  else do
    let actions0 ← (← fa.actionsP0.indexed).mapM cppActionFromJson
    let actions1 ← (← fa.actionsP1.indexed).mapM cppActionFromJson
    .ok (sourced actions0, sourced actions1)

section Convert

def Outcome.toJson : Outcome → Json
  | .bool b => .bool b
  | .member value => .int value
  | .int n => .int n
  | .float x => .float x

def convertRngRecord (r : RngLine) : Json :=
  .object [("turn", .int r.turn), ("event", .int r.event.code), ("occurrence", .int r.occurrence),
    ("outcome", r.outcome.toJson)]

def actionPayload (a : ExecAction) : Json :=
  .object [("kind", .int a.kind), ("move_slot", .int a.moveSlot),
    ("move_override", .int a.moveOverride), ("switch_to_slot", .int a.switchToSlot),
    ("target_side", .int a.targetSide), ("target_slot", .int a.targetSlot),
    ("mega", .bool a.mega), ("source_slot", .int a.sourceSlot)]

def encodeActions : Option (List ExecAction) → Json
  | none => .null
  | some actions => .arr (actions.map actionPayload)

def answerEntry (turn : Int) (event : RngEvent) (side i0 i1 : Int) (p0 p1 : Json) : Json :=
  .object [("turn", .int turn), ("event", .int event.code), ("side", .int side), ("i0", .int i0),
    ("i1", .int i1), ("actions_p0", p0), ("actions_p1", p1)]

def makeActionSelect (turn : Int) : Answer → Except String Json
  | .actions side0 side1 =>
    .ok (answerEntry turn .actionSelect (-1) (-1) (-1) (encodeActions side0) (encodeActions side1))
  | _ => .error "TypeError"

def splitSwitchAnswer (turn : Int) (event : RngEvent) : Answer → Except String (List Json)
  | .slots slot0 slot1 =>
    .ok ((slot0.map fun s => answerEntry turn event 0 s (-1) .null .null).toList ++
      (slot1.map fun s => answerEntry turn event 1 s (-1) .null .null).toList)
  | _ => .error "TypeError"

def makeRngAnswer (turn : Int) (event : RngEvent) : Answer → Except String Json
  | .stats boost drop =>
    if event = .moodyStats then .ok (answerEntry turn event (-1) boost drop .null .null)
    else .error "TypeError"
  | .value n =>
    if event = .moodyStats then .error "TypeError"
    else .ok (answerEntry turn event (-1) n (-1) .null .null)
  | _ => .error "TypeError"

def AnswerEvent.isNamed (name : String) (event : RngEvent) : AnswerEvent → Bool
  | .name s => s = name
  | .tagged e => e = event

def convertAnswerRecord (a : AnswerLine) : Except String (List Json) :=
  if a.event.isNamed "ACTION_SELECT" .actionSelect then
    (makeActionSelect a.turn a.answer).map fun entry => [entry]
  else if a.event.isNamed "FORCED_SWITCH" .forcedSwitch then
    splitSwitchAnswer a.turn .forcedSwitch a.answer
  else if a.event.isNamed "POST_FAINT_SWITCH" .postFaintSwitch then
    splitSwitchAnswer a.turn .postFaintSwitch a.answer
  else
    match a.event with
    | .name s => .error ("convert_trace: unrecognized answer event string " ++ s)
    | .tagged e =>
      if e = .speedTie then
        .error "convert_trace: SPEED_TIE must never appear in random-mode trace answers"
      else (makeRngAnswer a.turn e a.answer).map fun entry => [entry]

def convertTrace (records : List TraceLine) : Except String Json :=
  match records with
  | [] => .error "convert_trace: empty trace file"
  | first :: rest =>
    if first.isHeader = false then .error "convert_trace: first record is not a header"
    else if (records.getLast?.elim false TraceLine.isFinish) = false then
      .error "convert_trace: last record is not an end record"
    else do
      let answers ← (rest.dropLast.filterMap TraceLine.answer?).mapM convertAnswerRecord
      .ok (.object [("rng", .arr ((rest.dropLast.filterMap TraceLine.rng?).map convertRngRecord)),
        ("answers", .arr answers.flatten)])

end Convert

/-- What a replay asks the trace for. -/
inductive Request
  | bool (turn : Int32) (event : RngEvent)
  | double (turn : Int32) (event : RngEvent)
  | int (turn : Int32) (event : RngEvent)
  | answer (turn : Int32) (event : RngEvent) (side : Int32)

inductive Reply
  | bool (b : Bool)
  | double (d : ℚ)
  | int (i : Int64)
  | answer (a : ForcedAnswer)

def ForcedTrace.serve (ft : ForcedTrace) : Request → Except JsonFault (Reply × ForcedTrace)
  | .bool turn event => (ft.forceBool turn event).map fun r => (.bool r.1, r.2)
  | .double turn event => (ft.forceDouble turn event).map fun r => (.double r.1, r.2)
  | .int turn event => (ft.forceInt turn event).map fun r => (.int r.1, r.2)
  | .answer turn event side => (ft.nextAnswer turn event side).map fun r => (.answer r.1, r.2)

/-- Serve the requests of a game in order and check at its end that the trace is used up. -/
def ForcedTrace.replay (ft : ForcedTrace) : List Request → Except JsonFault (List Reply)
  | [] => ft.verifyExhausted.map fun _ => []
  | q :: rest => do
    let r ← ft.serve q
    let replies ← r.2.replay rest
    .ok (r.1 :: replies)

end NuzlockeSolver.Trace
