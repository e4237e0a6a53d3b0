import Mathlib.Algebra.GroupWithZero.Nat
import Mathlib.Data.List.MinMax
import Mathlib.Data.Prod.Lex
import Mathlib.Data.Rat.Defs
import Mathlib.Algebra.Order.Ring.Rat
import NuzlockeSolver.Relax

/-!
# Matching a battle message read from the screen

A template is a list of literal words, variables and enumerations. The matcher aligns the words
that were read with the segments of each template at least edit distance, and ranks the templates
that align. A filter on the number of words spares most of the alignments.

Words are lists of characters. The tables of known names and Python's tables of characters are
parameters; `_INF` and the order of the loops are the source's.
-/

namespace NuzlockeSolver.Matcher

abbrev Word := List Char

inductive VarCategory
  | pokemonName | moveName | itemName | abilityName | statName | typeName
  | trainerClass | trainerName | number | text
deriving DecidableEq, Repr

/-- The known names, the Levenshtein distance, and what Python knows of characters. -/
structure Lexicon where
  distance : Word → Word → Nat
  lower : Word → Word
  isSpace : Char → Bool
  isDigit : Char → Bool
  pokemonNames : List Word
  moveNames : List Word
  itemNames : List Word
  abilityNames : List Word
  statNames : List Word
  typeNames : List Word
  trainerClassNames : List Word
  trainerNames : List Word

structure Constraints where
  validPokemon : Option (List Word) := none
  validMoves : Option (List Word) := none
  validItems : Option (List Word) := none
  validAbilities : Option (List Word) := none
  trainerName : Option Word := none
  trainerClass : Option Word := none
  unconstrainedMoves : Bool := false
  unconstrainedNames : Bool := false
deriving DecidableEq, Repr

structure MatchResult where
  stringId : String
  idValue : Int
  constantName : String
  varValues : List Word
  score : Nat
  contextScore : Nat
  matchedText : Word
  slotLabels : List String
  literalCoverage : Rat
  sideHint : Option Nat
  nameSideSlots : List (Nat × Nat)
deriving DecidableEq

def infCost : Nat := 10 ^ 9

def foePrefix : Word := "Foe".toList

def minLiteralCoverage : Rat := 3 / 10

def joinWords (words : List Word) : Word := List.intercalate [' '] words

def splitWords (lex : Lexicon) (text : Word) : List Word :=
  (text.splitOnP lex.isSpace).filter fun word => !word.isEmpty

def strip (lex : Lexicon) (text : Word) : Word :=
  ((text.dropWhile lex.isSpace).reverse.dropWhile lex.isSpace).reverse

def startsWith (mark : String) (word : Word) : Bool := mark.toList.isPrefixOf word

def maxEdits (wordLen : Nat) : Nat :=
  if wordLen ≤ 3 then 1 else if wordLen ≤ 6 then 2 else max 3 (wordLen / 5)

variable (lex : Lexicon)

def wordCost (ocr template : Word) : Nat :=
  lex.distance (lex.lower ocr) (lex.lower template)

def bestMatch (candidate : Word) (known : List Word) : Option Word :=
  (known.foldl (fun (best : Nat × Option Word) v =>
    let d := wordCost lex candidate v
    if d < best.1 then (d, some v) else best) (maxEdits candidate.length + 1, none)).2

/-- `_best_match(text, known) or text`: an empty match counts as none. -/
def matchOr (text : Word) (known : List Word) : Word :=
  match bestMatch lex text known with
  | some (c :: cs) => c :: cs
  | _ => text

def matchesAnyConstraint (value : Word) (candidates : List Word) : Bool :=
  candidates.any fun c => wordCost lex value c ≤ maxEdits c.length

def struggleCanon : Word := "STRUGGLE".toList

def isStruggleSpan (span : Word) : Bool :=
  wordCost lex span struggleCanon ≤ maxEdits struggleCanon.length

def valueHasFoePrefix (value : Word) : Bool :=
  match splitWords lex value with
  | [] => false
  | first :: _ => lex.lower first == lex.lower foePrefix

def bareName (value : Word) : Option Word :=
  match splitWords lex value with
  | first :: second :: rest =>
    if wordCost lex first foePrefix ≤ maxEdits foePrefix.length then
      some (joinWords (second :: rest))
    else none
  | _ => none

def validatePokemonName (value : Word) : Bool :=
  match splitWords lex value with
  | [] => false
  | [_] => (bestMatch lex value lex.pokemonNames).isSome
  | _ =>
    match bareName lex value with
    | none => false
    | some namePart => (bestMatch lex namePart lex.pokemonNames).isSome

def ocrDigit (c : Char) : Char :=
  match c with
  | 'O' | 'o' | 'Q' | 'D' => '0'
  | 'I' | 'l' | '|' | 'i' => '1'
  | 'Z' => '2'
  | 'S' => '5'
  | 'G' => '6'
  | 'T' => '7'
  | 'B' => '8'
  | _ => c

def normalizeOcrDigits (value : Word) : Word := value.map ocrDigit

structure TemplateToken where
  isVar : Bool
  word : Word := []
  category : VarCategory := .text
  placeholder : String := ""
  choices : List Word := []
deriving DecidableEq, Repr

namespace TemplateToken

variable (tok : TemplateToken)

def isEnum : Bool := !tok.isVar && !tok.choices.isEmpty

def isLiteral : Bool := !tok.isVar && !tok.isEnum

def maxWords : Nat :=
  if tok.isEnum then (tok.choices.map fun c => (splitWords lex c).length).foldl max 0 else 1

end TemplateToken

inductive Segment
  | phrase (first : TemplateToken) (rest : List TemplateToken)
  | slot (tok : TemplateToken)
deriving DecidableEq, Repr

namespace Segment

def tokens : Segment → List TemplateToken
  | .phrase first rest => first :: rest
  | .slot tok => [tok]

def isPhrase : Segment → Bool
  | .phrase _ _ => true
  | .slot _ => false

def isVar : Segment → Bool
  | .phrase _ _ => false
  | .slot tok => tok.isVar

@[simp] theorem isPhrase_phrase (first : TemplateToken) (rest : List TemplateToken) :
    (Segment.phrase first rest).isPhrase = true := rfl

@[simp] theorem isPhrase_slot (tok : TemplateToken) : (Segment.slot tok).isPhrase = false := rfl

end Segment

def phraseText (tokens : List TemplateToken) : Word := joinWords (tokens.map (·.word))

def buildSegments : List TemplateToken → List Segment
  | [] => []
  | tok :: toks =>
    if tok.isLiteral then
      match buildSegments toks with
      | .phrase first rest :: segs => .phrase tok (first :: rest) :: segs
      | segs => .phrase tok [] :: segs
    else .slot tok :: buildSegments toks

structure Template where
  stringId : String
  idValue : Int
  constantName : String
  tokens : List TemplateToken
deriving DecidableEq, Repr

def budgetBonus (stringId : String) : Nat :=
  if stringId = "STRINGID_ATTACKERFAINTED" ∨ stringId = "STRINGID_TARGETFAINTED" then 2 else 0

def Segment.edits : Segment → Nat
  | .phrase first rest => maxEdits (phraseText (first :: rest)).length
  | .slot tok => if tok.isEnum then maxEdits ((tok.choices.map List.length).foldl max 0) else 0

namespace Template

variable (t : Template)

def segments : List Segment := buildSegments t.tokens

def literalCount : Nat := t.tokens.countP (·.isLiteral)

def enumCount : Nat := t.tokens.countP (·.isEnum)

def varCount : Nat := t.tokens.countP (·.isVar)

def phraseSegmentCount : Nat := t.segments.countP (·.isPhrase)

def minWords : Nat := t.phraseSegmentCount + t.enumCount + t.varCount

/-- The upper bound of the filter. -/
def mostWords : Nat := t.literalCount + t.enumCount * 3 + t.varCount * 3 + 1

def budget : Nat := (t.segments.map Segment.edits).sum + budgetBonus t.stringId

end Template

/-- The words from `i` up to `stop`. -/
def span (words : List Word) (i stop : Nat) : Word := joinWords ((words.drop i).take (stop - i))

/-- The ends `i + 1, …, i + most` that the words reach. -/
def ends (n i most : Nat) : List Nat := ((List.range most).map (i + 1 + ·)).filter (· ≤ n)

def choiceDistance (choices : List Word) (text : Word) : Nat :=
  ((choices.map (wordCost lex text)).min?).getD 0

def fusedSpans (words : List Word) (i : Nat) (first : TemplateToken) (rest : List TemplateToken) :
    List (Nat × Nat) :=
  let suffix := first.word
  let prevWord := words.getD (i - 1) []
  let base := prevWord.take (prevWord.length - suffix.length)
  if startsWith "'" suffix ∧ 0 < i ∧ (lex.lower suffix).isSuffixOf (lex.lower prevWord) ∧
      3 ≤ base.length ∧ validatePokemonName lex base then
    if rest.isEmpty then [(i, 0)]
    else (ends words.length i rest.length).map fun stop =>
      (stop, wordCost lex (span words i stop) (phraseText rest))
  else []

/-- The words a segment can take from the `i`-th on: where it ends and what that costs. -/
def segmentSpans (words : List Word) (i : Nat) : Segment → List (Nat × Nat)
  | .slot tok =>
    if tok.isVar then (ends words.length i words.length).map fun stop => (stop, 0)
    else (ends words.length i (tok.maxWords lex)).map fun stop =>
      (stop, choiceDistance lex tok.choices (span words i stop))
  | .phrase first rest =>
    ((ends words.length i (rest.length + 2)).map fun stop =>
      (stop, wordCost lex (span words i stop) (phraseText (first :: rest)))) ++
    fusedSpans lex words i first rest

abbrev Point := Nat × Nat

def alignEdges (segs : List Segment) (words : List Word) (p : Point) : List (Point × Nat) :=
  match segs[p.2]? with
  | none => []
  | some seg => (segmentSpans lex words p.1 seg).map fun e => ((e.1, p.2 + 1), e.2)

def alignOrder (segs : List Segment) (words : List Word) : List Point :=
  (List.range (words.length + 1)).flatMap fun i => (List.range (segs.length + 1)).map fun s => (i, s)

def alignTable (segs : List Segment) (words : List Word) : Relax.Table Point :=
  Relax.run infCost (alignEdges lex segs words) (0, 0) (alignOrder segs words)

/-- A segment with the words it takes, from `start` up to `stop`. -/
structure Piece where
  segment : Segment
  start : Nat
  stop : Nat

/-- The words of a piece. -/
def Piece.taken (piece : Piece) : Nat := piece.stop - piece.start

def pieces (segs : List Segment) : List Point → List Piece
  | stop :: start :: path =>
    match segs[start.2]? with
    | none => pieces segs (start :: path)
    | some seg => ⟨seg, start.1, stop.1⟩ :: pieces segs (start :: path)
  | _ => []

def canonicalVarValue (span : Word) (cat : VarCategory) (constraints : Option Constraints) : Word :=
  let best (known : List Word) : Word := matchOr lex span known
  let close (val : Word) : Word := if wordCost lex span val ≤ maxEdits val.length then val else span
  match cat with
  | .number => normalizeOcrDigits span
  | .moveName =>
    if isStruggleSpan lex span then struggleCanon
    else match constraints with
      | some c =>
        match c.unconstrainedMoves, c.validMoves with
        | false, some moves => best moves
        | _, _ => best lex.moveNames
      | none => best lex.moveNames
  | .pokemonName =>
    let known := (constraints.bind (·.validPokemon)).getD lex.pokemonNames
    match bareName lex span with
    | some bare => foePrefix ++ [' '] ++ matchOr lex bare known
    | none => best known
  | .itemName => best ((constraints.bind (·.validItems)).getD lex.itemNames)
  | .abilityName => best ((constraints.bind (·.validAbilities)).getD lex.abilityNames)
  | .trainerClass =>
    match constraints.bind (·.trainerClass) with
    | some val => close val
    | none => best lex.trainerClassNames
  | .trainerName =>
    match constraints.bind (·.trainerName) with
    | some val => close val
    | none => best lex.trainerNames
  | _ => span

def capture (words : List Word) (constraints : Option Constraints) (piece : Piece) : Option Word :=
  match piece.segment with
  | .phrase _ _ => none
  | .slot tok =>
    let text := span words piece.start piece.stop
    if tok.isEnum then some ((tok.choices.argmin (wordCost lex text)).getD [])
    else some (canonicalVarValue lex text tok.category constraints)

/-- `_traceback`: the values in the order of the slots. -/
def capturedValues (segs : List Segment) (words : List Word) (constraints : Option Constraints)
    (path : List Point) : List Word :=
  (pieces segs path).reverse.filterMap (capture lex words constraints)

def validateTrainerPair (combined : Word) (constraints : Option Constraints) : Bool :=
  match constraints.bind (·.trainerClass) with
  | some trainerClass =>
    let trainerName := (constraints.bind (·.trainerName)).getD []
    let target := strip lex (trainerClass ++ [' '] ++ trainerName)
    wordCost lex combined target ≤ maxEdits target.length
  | none => (bestMatch lex combined lex.trainerNames).isSome

def validateOne (value : Word) (cat : VarCategory) (constraints : Option Constraints) : Bool :=
  let known (names : List Word) : Bool := (bestMatch lex value names).isSome
  let allowed (names : Option (List Word)) (all : List Word) : Bool :=
    match names with
    | some names => matchesAnyConstraint lex value names
    | none => known all
  let close (val : Option Word) (all : List Word) : Bool :=
    match val with
    | some val => wordCost lex value val ≤ maxEdits val.length
    | none => known all
  if cat = .text then true
  else if value.isEmpty then false
  else match cat with
    | .pokemonName =>
      if (constraints.map (·.unconstrainedNames)).getD false then validatePokemonName lex value
      else match constraints.bind (·.validPokemon) with
        | some names => matchesAnyConstraint lex ((bareName lex value).getD value) names
        | none => validatePokemonName lex value
    | .moveName =>
      if value = struggleCanon ∨ isStruggleSpan lex value then true
      else if (constraints.map (·.unconstrainedMoves)).getD false then known lex.moveNames
      else allowed (constraints.bind (·.validMoves)) lex.moveNames
    | .itemName => allowed (constraints.bind (·.validItems)) lex.itemNames
    | .abilityName => allowed (constraints.bind (·.validAbilities)) lex.abilityNames
    | .statName => known lex.statNames
    | .typeName => known lex.typeNames
    | .trainerClass => close (constraints.bind (·.trainerClass)) lex.trainerClassNames
    | .trainerName => close (constraints.bind (·.trainerName)) lex.trainerNames
    | .number =>
      (normalizeOcrDigits value).all fun c => lex.isDigit c || c == ',' || c == '¥'
    | .text => true

def extractingTokens (t : Template) : List TemplateToken :=
  t.tokens.filter fun tok => tok.isVar || tok.isEnum

def isTrainerPair (toks : List TemplateToken) (k : Nat) : Bool :=
  match toks[k]?, toks[k + 1]? with
  | some fst, some snd =>
    fst.isVar && fst.category == .trainerClass && snd.isVar && snd.category == .trainerName
  | _, _ => false

def validateVars (t : Template) (varValues : List Word) (constraints : Option Constraints) : Bool :=
  let toks := extractingTokens t
  let skip (idx : Nat) : Bool :=
    isTrainerPair toks idx || (0 < idx && isTrainerPair toks (idx - 1))
  ((List.range (toks.length - 1)).all fun k => !isTrainerPair toks k ||
    (k + 1 < varValues.length && validateTrainerPair lex
      (strip lex (varValues.getD k [] ++ [' '] ++ varValues.getD (k + 1) [])) constraints)) &&
  ((toks.zip varValues).zipIdx.all fun entry => skip entry.2 || entry.1.1.isEnum ||
    validateOne lex entry.1.2 entry.1.1.category constraints)

def reconstructParts : List TemplateToken → List Word → List Word → List Word
  | [], _, parts => parts.reverse
  | tok :: toks, varValues, parts =>
    if tok.isVar || tok.isEnum then
      match varValues with
      | [] => reconstructParts toks [] parts
      | value :: varValues => reconstructParts toks varValues (value :: parts)
    else
      match parts with
      | last :: _ =>
        if startsWith "'" tok.word ∧ tok.word.isSuffixOf last then
          reconstructParts toks varValues parts
        else reconstructParts toks varValues (tok.word :: parts)
      | [] => reconstructParts toks varValues [tok.word]

def reconstruct (t : Template) (varValues : List Word) : Word :=
  (reconstructParts t.tokens varValues []).foldl (fun result part =>
    let part := strip lex part
    if part.isEmpty then result
    else if !result.isEmpty && !startsWith "!" part && !startsWith "'" part then
      result ++ [' '] ++ part
    else result ++ part) []

def withPrevious (t : Template) : List (Option TemplateToken × TemplateToken) :=
  (none :: t.tokens.map some).zip t.tokens

def isFoeWord (word : Word) : Bool := lex.lower word == lex.lower foePrefix

def atkPlaceholders : List String :=
  ["B_ATK_NAME_WITH_PREFIX", "B_PLAYER_MON1_NAME", "B_PLAYER_MON2_NAME"]

def defPlaceholders : List String :=
  ["B_DEF_NAME_WITH_PREFIX", "B_OPPONENT_MON1_NAME", "B_OPPONENT_MON2_NAME",
    "B_LINK_OPPONENT_MON1_NAME", "B_LINK_OPPONENT_MON2_NAME"]

/-- The variables are paired with the values of all slots, as the source does. -/
def contextScore (t : Template) (varValues : List Word) : Nat :=
  (((withPrevious t).filter (·.2.isVar)).zip varValues).countP fun entry =>
    let tok := entry.1.2
    let foeAsLiteral := entry.1.1.any fun prev => !prev.isVar && isFoeWord lex prev.word
    let hasFoe := foeAsLiteral || valueHasFoePrefix lex entry.2
    tok.category == .pokemonName &&
      (if hasFoe then tok.placeholder ∈ atkPlaceholders else tok.placeholder ∈ defPlaceholders)

def slotHasFoe (previous : Option TemplateToken) (value : Word) : Bool :=
  (previous.any fun prev => prev.isLiteral && isFoeWord lex prev.word) ||
    valueHasFoePrefix lex value

def extractingWithPrevious (t : Template) : List (Option TemplateToken × TemplateToken) :=
  (withPrevious t).filter fun entry => entry.2.isVar || entry.2.isEnum

def isPokemonVar (tok : TemplateToken) : Bool := tok.isVar && tok.category == .pokemonName

def nameSideSlots (t : Template) (varValues : List Word) : List (Nat × Nat) :=
  (extractingWithPrevious t).zipIdx.filterMap fun entry =>
    if isPokemonVar entry.1.2 then
      some (entry.2, if slotHasFoe lex entry.1.1 (varValues.getD entry.2 []) then 1 else 0)
    else none

def subjectSideHint (t : Template) (varValues : List Word) : Option Nat :=
  match extractingWithPrevious t, varValues with
  | first :: _, val0 :: _ =>
    if isPokemonVar first.2 then some (if slotHasFoe lex first.1 val0 then 1 else 0) else none
  | _, _ => none

def slotLabels (t : Template) : List String :=
  t.segments.filterMap fun seg =>
    match seg with
    | .phrase _ _ => none
    | .slot tok => some tok.placeholder

def varWords (segs : List Segment) (path : List Point) : Nat :=
  (((pieces segs path).filter (·.segment.isVar)).map Piece.taken).sum

def literalCoverage (n varWords : Nat) : Rat := if n = 0 then 1 else ((n : Rat) - varWords) / n

def finalSegment (table : Relax.Table Point) (n S : Nat) (isPartial : Bool) : Option Nat :=
  if isPartial then
    (((List.range S).map (· + 1)).filter fun s => (table.get (n, s)).cost < infCost).argmin
      fun s => (table.get (n, s)).cost
  else if infCost ≤ (table.get (n, S)).cost then none
  else some S

def tryAlign (t : Template) (words : List Word) (isPartial : Bool)
    (constraints : Option Constraints) : Option MatchResult :=
  let segs := t.segments
  let n := words.length
  let table := alignTable lex segs words
  match finalSegment table n segs.length isPartial with
  | none => none
  | some s =>
    let cost := (table.get (n, s)).cost
    if t.budget < cost then none
    else
      let path := Relax.trace table s (n, s)
      let varValues := capturedValues lex segs words constraints path
      if !isPartial && !validateVars lex t varValues constraints then none
      else some {
        stringId := t.stringId
        idValue := t.idValue
        constantName := t.constantName
        varValues := varValues
        score := cost
        contextScore := contextScore lex t varValues
        matchedText := reconstruct lex t varValues
        slotLabels := slotLabels t
        literalCoverage := literalCoverage n (varWords segs path)
        sideHint := subjectSideHint lex t varValues
        nameSideSlots := nameSideSlots lex t varValues }

def outranks (r best : MatchResult × Nat) : Bool :=
  r.1.score < best.1.score || (r.1.score == best.1.score && best.2 < r.2) ||
    (r.1.score == best.1.score && r.2 == best.2 && r.1.contextScore < best.1.contextScore)

structure Ranking where
  best : Option (MatchResult × Nat) := none
  results : List (MatchResult × Nat) := []

def Ranking.add (ranking : Ranking) (r : MatchResult × Nat) : Ranking :=
  { best :=
      match ranking.best with
      | none => some r
      | some best => if outranks r best then some r else some best
    results := ranking.results ++ [r] }

def CoverageKey : Type := Rat ×ₗ Int ×ₗ Nat ×ₗ Int

instance : LinearOrder CoverageKey := inferInstanceAs (LinearOrder (Rat ×ₗ Int ×ₗ Nat ×ₗ Int))

def coverageKey (r : MatchResult × Nat) : CoverageKey :=
  toLex (r.1.literalCoverage, toLex (-(r.1.score : Int), toLex (r.2, -(r.1.contextScore : Int))))

/-- The winner; one that explains too few of the words gives way to the one that explains most. -/
def Ranking.winner (ranking : Ranking) : Option MatchResult :=
  match ranking.best with
  | none => none
  | some best =>
    if best.1.literalCoverage < minLiteralCoverage then
      (ranking.results.argmax coverageKey).map Prod.fst
    else some best.1

def consider (words : List Word) (constraints : Option Constraints) (ranking : Ranking)
    (t : Template) : Ranking :=
  if t.literalCount = 0 ∧ t.enumCount = 0 then ranking
  else
    match tryAlign lex t words false constraints with
    | none => ranking
    | some r => ranking.add (r, t.literalCount)

/-- The loop of `_try_full_match` over a list of candidates. -/
def fullMatchOver (candidates : List Template) (words : List Word)
    (constraints : Option Constraints) : Option MatchResult :=
  (candidates.foldl (consider lex words constraints) {}).winner

def filterCandidates (templates : List Template) (words : List Word) : List Template :=
  templates.filter fun t => t.minWords ≤ words.length ∧ words.length ≤ t.mostWords

def tryFullMatch (templates : List Template) (words : List Word)
    (constraints : Option Constraints) : Option MatchResult :=
  fullMatchOver lex (filterCandidates templates words) words constraints

end NuzlockeSolver.Matcher
