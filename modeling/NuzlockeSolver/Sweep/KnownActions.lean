import NuzlockeSolver.Basic
import NuzlockeSolver.Question

/-!
# The actions observed in a turn

The sweep reads the turn's messages twice: one pass derives the actions that each side chose, and
one lists the switch-ins of the opponent for the replacements after a faint. The first pass tells
a replacement from a chosen switch by counting the faints that no switch-in has answered yet.

`enumerate_legal_actions` and the edit distance are parameters.
-/

namespace NuzlockeSolver

structure MatchResult where
  stringId : String
  constantName : String := ""
  varValues : List String := []
  matchedText : String := ""
  sideHint : Option Nat := none
deriving DecidableEq, Repr

def usedMoveId : String := "STRINGID_USEDMOVE"

def introMsgId : String := "STRINGID_INTROMSG"

def faintMsgIds : List String := ["STRINGID_ATTACKERFAINTED", "STRINGID_TARGETFAINTED"]

def switchIds : List String :=
  ["STRINGID_SWITCHINMON", "STRINGID_INTROSENDOUT", "STRINGID_PLAYER_SWITCHINMON",
    "STRINGID_PLAYER_INTROSENDOUT"]

def trainerSideConstantNames : List String :=
  ["sText_Trainer1SentOutPkmn", "sText_Trainer1SentOutTwoPkmn", "sText_TwoTrainersSentPkmn",
    "sText_Trainer1WithdrewPkmn", "sText_Trainer1SentOutPkmn2"]

def sideFromConstantName (constantName : String) : Nat :=
  if constantName ∈ trainerSideConstantNames then 1 else 0

/-- `strip` and `lower` of Python. Only a prefix in ASCII is read of the result, and outside ASCII no
character has a lower case that begins with one of its letters. -/
def stripLower (text : String) : List Char := (strip text.toList).map Char.toLower

def msgIsFoe (msg : MatchResult) : Bool :=
  "foe ".toList.isPrefixOf (stripLower msg.matchedText)

structure SweepMember where
  speciesName : String
  emulatorName : String
  moveNames : List String := []
  fainted : Bool := false
deriving DecidableEq, Repr

structure SweepParty where
  team : List SweepMember
  activeIndices : List Nat
deriving DecidableEq, Repr

structure SweepState where
  side0 : SweepParty
  side1 : SweepParty
deriving DecidableEq, Repr

def SweepState.side (state : SweepState) (i : Nat) : SweepParty :=
  if i = 0 then state.side0 else state.side1

inductive SweepFault
  | simulation (reason : String)
  | unreproducibleObservedMove (what : String)
  | rosterAmbiguity (what : String)
  | sideHintMissing (what : String)
  | sideHintContradiction (what : String)
  | actorNotActive (what : String)
  | assertion (what : String)
  | unboundLocal (name : String)
deriving DecidableEq, Repr

/-- A list of names as Python prints it. -/
def pyNames (names : List String) : String :=
  "[" ++ ", ".intercalate (names.map fun s => "'" ++ s ++ "'") ++ "]"

def pyInts (ns : List Nat) : String := "[" ++ ", ".intercalate (ns.map toString) ++ "]"

/-- What the two passes take from elsewhere. -/
structure SweepLookup where
  distance : String → String → Nat
  legalActions : SweepState → Nat → Nat → List ExecAction

namespace SweepLookup

variable (L : SweepLookup) (state : SweepState)

def speciesMatchThreshold (name : String) : Nat := max 1 (name.length / 5)

def nameMatches (upperName : String) (m : SweepMember) : Bool :=
  L.distance upperName m.emulatorName ≤ speciesMatchThreshold m.emulatorName

def matchPositions (side : Nat) (name : String) : List Nat :=
  let party := state.side side
  (party.activeIndices.zipIdx.filter fun p =>
    ((party.team[p.1]?).map (L.nameMatches name.toUpper)).getD false).map Prod.snd

def activeMatches (side : Nat) (name : String) : Bool := !(L.matchPositions state side name).isEmpty

def recognizableAnywhere (name : String) : Bool :=
  (state.side0.team ++ state.side1.team).any (L.nameMatches name.toUpper)

def fuzzyFindSide (name : String) (sideHint : Option Nat) : Except SweepFault Nat :=
  match sideHint with
  | none => .error (.sideHintMissing ("cannot resolve the acting side for '" ++ name ++
      "' without a side_hint (every actor-naming battle message must carry a " ++
        "Foe-prefix-derived hint)"))
  | some hint =>
    let hintMatches := L.activeMatches state hint name
    let otherMatches := L.activeMatches state (1 - hint) name
    if !hintMatches && otherMatches then
      .error (.sideHintContradiction ("side_hint=" ++ toString hint ++ " for '" ++ name ++
        "' contradicts the battle state: side " ++ toString hint ++
          "'s active does not match the name but side " ++ toString (1 - hint) ++ "'s does"))
    else if !hintMatches && !otherMatches && L.recognizableAnywhere state name then
      .error (.actorNotActive ("actor message names '" ++ name ++ "' (side_hint=" ++
        toString hint ++ ") but that species is not currently active on either side — " ++
          "possible desync"))
    else .ok hint

def fuzzyFindTeamSlots (name : String) (side : Nat) : List Nat :=
  let party := state.side side
  let matching := party.team.findIdxs (L.nameMatches name.toUpper)
  if matching.length ≤ 1 then matching
  else
    let eligible := matching.filter fun s =>
      s ∉ party.activeIndices ∧ !((party.team[s]?).map SweepMember.fainted).getD false
    if eligible.isEmpty then matching else eligible

def fuzzyFindTeamSlot (name : String) (side : Nat) : Except SweepFault (Option Nat) :=
  match L.fuzzyFindTeamSlots state name side with
  | [] => .ok none
  | [s] => .ok (some s)
  | slots => .error (.rosterAmbiguity ("name '" ++ name ++
      "' fuzzy-matches multiple team slots on side " ++ toString side ++ ": slots " ++
        pyInts slots ++ " — cannot determine which duplicate to use"))

def fuzzyFindMoveSlot (moveName : String) (poke : SweepMember) : Int :=
  let best := poke.moveNames.zipIdx.foldl (fun (best : Option (Nat × Nat)) m =>
    let dist := L.distance moveName.toUpper m.1.toUpper
    match best with
    | none => some (dist, m.2)
    | some b => if dist < b.1 then some (dist, m.2) else best) none
  match best with
  | none => -1
  | some b => if b.1 > 4 then -1 else b.2

end SweepLookup

structure PerSide (α : Type) where
  player : α
  opp : α
deriving DecidableEq, Repr

namespace PerSide

variable {α : Type}

def get (p : PerSide α) (side : Nat) : α := if side = 0 then p.player else p.opp

def set (p : PerSide α) (side : Nat) (a : α) : PerSide α :=
  if side = 0 then { p with player := a } else { p with opp := a }

end PerSide

/-- The loop state of `_extract_known_actions`. The last two fields are not in the source: they
record by position which side-1 switch-ins answer a faint, in order, and which one is taken as
the opponent's choice. -/
structure KnownScan where
  result : PerSide (List (Option ExecAction))
  pendingFaint : PerSide Nat := ⟨0, 0⟩
  cursor : PerSide Nat := ⟨0, 0⟩
  -- `move_slot`, which keeps its value from one message to the next
  moveSlot : Option Int := none
  replacements : List Nat := []
  voluntary : Option Nat := none
deriving DecidableEq, Repr

abbrev SlotMap := Nat → Option (Nat × Nat)

namespace SweepLookup

variable (L : SweepLookup) (state : SweepState)

/-- The slot of an attacker, advancing the cursor on a tie; `none` if no active carries the
name. -/
def resolveAttackerSlot (side : Nat) (name : String) (cursor : PerSide Nat) :
    Option (Nat × PerSide Nat) :=
  match L.matchPositions state side name with
  | [] => none
  | [pos] => some (pos, cursor)
  | positions =>
    some ((positions[cursor.get side % positions.length]?).getD 0,
      cursor.set side (cursor.get side + 1))

def usedMoveSlot (slotMap : Option SlotMap) (i : Nat) (msg : MatchResult) (name : String)
    (cursor : PerSide Nat) : Except SweepFault (Option (Nat × Nat × PerSide Nat)) :=
  match slotMap with
  | some map => .ok ((map i).map fun e => (e.1, e.2, cursor))
  | none => do
    let side ← L.fuzzyFindSide state name msg.sideHint
    .ok ((L.resolveAttackerSlot state side name cursor).map fun r => (side, r.1, r.2))

/-- The action of an observed move, which the candidate's state must allow, and `move_slot`.
Struggle assigns no slot, so its complaint names the slot of an earlier message, if any. -/
def usedMoveAction (side sourceSlot : Nat) (poke : SweepMember) (moveName : String)
    (moveSlot : Option Int) : Except SweepFault (ExecAction × Option Int) := do
  let (action, moveSlot) ←
    if moveName.toUpper = "STRUGGLE" then
      (.ok ({ moveSlot := -2, moveOverride := 165, sourceSlot := sourceSlot }, moveSlot) :
        Except SweepFault (ExecAction × Option Int))
    else
      let moveSlot := L.fuzzyFindMoveSlot moveName poke
      if moveSlot < 0 then
        .error (.unreproducibleObservedMove (poke.speciesName ++ " used '" ++ moveName ++
          "' but that move is not in its modeled moveset " ++ pyNames poke.moveNames ++
            " (not-in-moveset desync)"))
      else .ok ({ moveSlot := moveSlot, sourceSlot := sourceSlot }, some moveSlot)
  if (L.legalActions state side sourceSlot).any fun a =>
      a.kind = action.kind ∧ a.moveSlot = action.moveSlot then .ok (action, moveSlot)
  else
    match moveSlot with
    | none => .error (.unboundLocal "move_slot")
    | some slot => .error (.unreproducibleObservedMove (poke.speciesName ++ " used '" ++
        moveName ++ "' (slot " ++ toString slot ++ ") but that action is not in " ++
          "enumerate_legal_actions for this candidate's state (not-legal desync)"))

def stepUsedMove (slotMap : Option SlotMap) (i : Nat) (msg : MatchResult) (S : KnownScan) :
    Except SweepFault KnownScan :=
  match msg.varValues with
  | [] => .ok S
  | name :: rest => do
    match ← L.usedMoveSlot state slotMap i msg name S.cursor with
    | none => .ok S
    | some (side, sourceSlot, cursor) =>
      let S := { S with cursor := cursor }
      if ((S.result.get side)[sourceSlot]?).join.isSome then .ok S
      else
        let party := state.side side
        match party.activeIndices[sourceSlot]? with
        | none => .error (.simulation "list index out of range")
        | some activeIdx =>
          match party.team[activeIdx]? with
          | none => .error (.simulation "list index out of range")
          | some poke => do
            let (action, moveSlot) ←
              L.usedMoveAction state side sourceSlot poke (rest.headD "") S.moveSlot
            .ok { S with
              moveSlot := moveSlot
              result := S.result.set side ((S.result.get side).set sourceSlot (some action)) }

def stepSwitchIn (battleStart : Bool) (i : Nat) (msg : MatchResult) (S : KnownScan) :
    Except SweepFault KnownScan :=
  let side := sideFromConstantName msg.constantName
  if battleStart then .ok S
  else if 0 < S.pendingFaint.get side then
    .ok { S with
      pendingFaint := S.pendingFaint.set side (S.pendingFaint.get side - 1)
      replacements := if side = 1 then S.replacements ++ [i] else S.replacements }
  else if (S.result.get side).any Option.isSome then .ok S
  else do
    let incomingName := msg.varValues.getLast?.getD ""
    match ← L.fuzzyFindTeamSlot state incomingName side with
    | none => .error (.simulation ("Observed switch-in '" ++ incomingName ++ "' on side " ++
        toString side ++ " does not match any team slot (roster desync). Team: " ++
          pyNames ((state.side side).team.map SweepMember.speciesName)))
    | some teamSlot =>
      let action : ExecAction := { kind := 1, switchToSlot := teamSlot }
      .ok { S with
        result := S.result.set side ((S.result.get side).set 0 (some action))
        voluntary := if side = 1 then some i else S.voluntary }

def stepMessage (slotMap : Option SlotMap) (battleStart : Bool) (i : Nat) (msg : MatchResult)
    (S : KnownScan) : Except SweepFault KnownScan :=
  if msg.stringId ∈ faintMsgIds then
    let side := if msgIsFoe msg then 1 else 0
    .ok { S with pendingFaint := S.pendingFaint.set side (S.pendingFaint.get side + 1) }
  else if msg.stringId = usedMoveId then L.stepUsedMove state slotMap i msg S
  else if msg.stringId ∈ switchIds then L.stepSwitchIn state battleStart i msg S
  else .ok S

def scanMessages (slotMap : Option SlotMap) (battleStart : Bool) :
    Nat → List MatchResult → KnownScan → Except SweepFault KnownScan
  | _, [], S => .ok S
  | i, msg :: messages, S => do
    let S ← L.stepMessage state slotMap battleStart i msg S
    scanMessages slotMap battleStart (i + 1) messages S

def extractKnownActions (messages : List MatchResult) (slotMap : Option SlotMap) :
    Except SweepFault KnownScan :=
  let battleStart := messages.any fun msg => msg.stringId = introMsgId
  let noActions := fun side => List.replicate (state.side side).activeIndices.length none
  L.scanMessages state slotMap battleStart 0 messages
    { result := ⟨noActions 0, noActions 1⟩ }

end SweepLookup

def isFoeSwitchIn (msg : MatchResult) : Bool :=
  msg.stringId ∈ switchIds ∧ sideFromConstantName msg.constantName = 1

def product {α : Type} : List (List α) → List (List α)
  | [] => [[]]
  | l :: ls => l.flatMap fun a => (product ls).map (a :: ·)

namespace SweepLookup

variable (L : SweepLookup) (state : SweepState)

def switchInSlots (msg : MatchResult) : Except SweepFault (List Nat) :=
  let incomingName := msg.varValues.getLast?.getD ""
  match L.fuzzyFindTeamSlots state incomingName 1 with
  | [] => .error (.simulation ("Observed opponent switch-in '" ++ incomingName ++
      "' does not match any team slot on side 1 (roster desync). Team: " ++
        pyNames (state.side1.team.map SweepMember.speciesName)))
  | slots => .ok slots

/-- The branches of the queue: one slot for each switch-in of the opponent. -/
def opponentSwitchInActions (messages : List MatchResult) :
    Except SweepFault (List (List ExecAction)) := do
  let perSwitchSlots ← (messages.filter isFoeSwitchIn).mapM (L.switchInSlots state)
  .ok ((product perSwitchSlots).map fun (combo : List Nat) =>
    combo.map fun (s : Nat) => { kind := 1, switchToSlot := s })

end SweepLookup

end NuzlockeSolver
