import Mathlib.Data.List.Infix
import Mathlib.Data.List.Chain
import NuzlockeSolver.Liveplay.Prefilter

/-!
# The stream of captured frames

The screen types each message out, and the matcher sees a sequence of captures. The pending
capture is final when the next text does not continue it; blank frames and menu screens leave it
as it is. What the matcher returns over a stream is the last capture of each run of continued
texts, so a message is lost exactly when the next one starts with all of its text.
-/

namespace NuzlockeSolver.Matcher

section Runs

variable {α : Type*} (continues : α → α → Bool)

def runLasts : α → List α → List α
  | a, [] => [a]
  | a, b :: l => if continues a b then runLasts b l else a :: runLasts b l

def runLastsOf : List α → List α
  | [] => []
  | a :: l => runLasts continues a l

variable {continues}

theorem runLasts_append {a : α} {l : List α} (h : (a :: l).IsChain fun x y => continues x y)
    (rest : List α) :
    runLasts continues a (l ++ rest) =
      runLasts continues ((a :: l).getLast (List.cons_ne_nil a l)) rest := by
  induction l generalizing a with
  | nil => rfl
  | cons b l ih =>
    obtain ⟨hab, htail⟩ := List.isChain_cons_cons.1 h
    rw [List.cons_append, runLasts, if_pos hab, ih htail, List.getLast_cons_cons]

end Runs

structure Capture where
  words : List Word
  constraints : Option Constraints := none
deriving DecidableEq

def Capture.raw (c : Capture) : Word := joinWords c.words

def isPrefix (a b : Word) : Bool := a.isPrefixOf b

inductive ScreenKind
  | optionSelect | moveSelect | partyMenu
deriving DecidableEq, Repr

/-- What a call of `process` returns, when it returns something. -/
inductive Reply
  | matched (r : MatchResult)
  | signal (kind : ScreenKind)

structure UnknownMessageError where
  ocrWords : List Word
  reason : String

def dropDotRuns (w : Word) : Word :=
  ((w.splitBy fun a b => a == '.' && b == '.').filter fun run => run.length < 2).flatten

def preprocessWord (w : Word) : List Word :=
  let w := dropDotRuns (w.filter (· ≠ '…'))
  if w = [] then []
  else if w.getLast? = some '!' ∧ 1 < w.length then [w.dropLast, ['!']]
  else [w]

def preprocessOcr (ocrWords : List Word) : List Word := ocrWords.flatMap preprocessWord

section Screens

variable (lex : Lexicon) (isDecimal : Char → Bool)

def optionSelectWords : List Word := ["fight", "bag", "pokemon", "run"].map String.toList

def near (w : Word) (text : String) : Bool := lex.distance w text.toList ≤ 1

def rstripQuestion (w : Word) : Word := (w.reverse.dropWhile (· = '?')).reverse

def isActionPrompt (lower : List Word) : Bool :=
  match lower with
  | first :: second :: third :: rest =>
    near lex first "what" && near lex second "will" &&
      near lex (rstripQuestion ((third :: rest).getLastD [])) "do"
  | _ => false

def isPartyMenu (lower : List Word) : Bool :=
  decide ("pokemon".toList <:+: joinWords lower) && lower.any (near lex · "cancel")

def isChoosePokemonPrompt (lower : List Word) : Bool :=
  match lower with
  | [] => false
  | first :: _ => near lex first "choose" && lower.any (startsWith "pok")

def isFraction (w : Word) : Bool :=
  match w.splitOn '/' with
  | [a, b] => !a.isEmpty && a.all isDecimal && !b.isEmpty && b.all isDecimal
  | _ => false

def detectScreenType (ocrWords : List Word) : Option ScreenKind :=
  let lower := ocrWords.map lex.lower
  if 3 ≤ lower.countP (optionSelectWords.contains ·) then some .optionSelect
  else if isActionPrompt lex lower then some .optionSelect
  else if lower.any (· == "pp".toList) && ocrWords.any (isFraction isDecimal) then some .moveSelect
  else if isPartyMenu lex lower then some .partyMenu
  else if isChoosePokemonPrompt lex lower then some .partyMenu
  else none

end Screens

section Process

variable (lex : Lexicon) (isDecimal : Char → Bool) (templates : List Template)

def finalize (c : Capture) : Except UnknownMessageError MatchResult :=
  let words := preprocessOcr c.words
  match tryFullMatch lex templates words c.constraints with
  | some r => .ok r
  | none => .error ⟨words, "no_template_match"⟩

def process (pending : Option Capture) (c : Capture) :
    Option Capture × Except UnknownMessageError (Option Reply) :=
  if c.words = [] then (pending, .ok none)
  else
    match detectScreenType lex isDecimal c.words with
    | some kind => (pending, .ok (some (.signal kind)))
    | none =>
      match pending with
      | none => (some c, .ok none)
      | some old =>
        if isPrefix old.raw c.raw then (some c, .ok none)
        else (some c, (finalize lex templates old).map fun r => some (.matched r))

def flush (pending : Option Capture) :
    Option Capture × Except UnknownMessageError (Option MatchResult) :=
  match pending with
  | none => (none, .ok none)
  | some c => (none, (finalize lex templates c).map some)

/-- A match that a call returns, or the error it raises for a text without one. -/
def Reply.result : Except UnknownMessageError (Option Reply) →
    Option (Except UnknownMessageError MatchResult)
  | .ok (some (.matched r)) => some (.ok r)
  | .ok _ => none
  | .error e => some (.error e)

def flushResult : Except UnknownMessageError (Option MatchResult) →
    Option (Except UnknownMessageError MatchResult)
  | .ok (some r) => some (.ok r)
  | .ok none => none
  | .error e => some (.error e)

/-- The results of the calls of `process` over a stream and of the flush at its end. -/
def results (pending : Option Capture) : List Capture →
    List (Except UnknownMessageError MatchResult)
  | [] => (flushResult (flush lex templates pending).2).toList
  | c :: stream =>
    (Reply.result (process lex isDecimal templates pending c).2).toList ++
      results (process lex isDecimal templates pending c).1 stream

def Visible (c : Capture) : Prop := c.words ≠ [] ∧ detectScreenType lex isDecimal c.words = none

instance : DecidablePred (Visible lex isDecimal) := fun _ => inferInstanceAs (Decidable (_ ∧ _))

def continues (a b : Capture) : Bool := isPrefix a.raw b.raw

variable {lex isDecimal templates}

theorem flushResult_finalize (c : Capture) :
    flushResult ((finalize lex templates c).map some) = some (finalize lex templates c) := by
  cases finalize lex templates c <;> rfl

theorem result_finalize (c : Capture) :
    Reply.result ((finalize lex templates c).map fun r => some (.matched r)) =
      some (finalize lex templates c) := by
  cases finalize lex templates c <;> rfl

variable (templates) in
theorem process_of_not_visible (pending : Option Capture) {c : Capture}
    (h : ¬ Visible lex isDecimal c) :
    (process lex isDecimal templates pending c).1 = pending ∧
      Reply.result (process lex isDecimal templates pending c).2 = none := by
  unfold process
  split
  · exact ⟨rfl, rfl⟩
  · rename_i hwords
    cases hscreen : detectScreenType lex isDecimal c.words with
    | none => exact absurd ⟨hwords, hscreen⟩ h
    | some kind => exact ⟨rfl, rfl⟩

variable (templates) in
theorem process_of_visible (pending : Option Capture) {c : Capture}
    (h : Visible lex isDecimal c) :
    (process lex isDecimal templates pending c).1 = some c ∧
      Reply.result (process lex isDecimal templates pending c).2 =
        match pending with
        | none => none
        | some old => if continues old c then none else some (finalize lex templates old) := by
  unfold process
  rw [if_neg h.1, h.2]
  cases pending with
  | none => exact ⟨rfl, rfl⟩
  | some old =>
    by_cases hcont : isPrefix old.raw c.raw = true
    · have hcont' : continues old c = true := hcont
      simp only [hcont, hcont', if_true, true_and]
      rfl
    · have hcont' : ¬ continues old c = true := hcont
      simp only [hcont, hcont', Bool.false_eq_true, if_false, true_and]
      exact result_finalize old

/-- A stream comes down to its visible captures, and to the last of each run of them. -/
theorem results_eq (pending : Option Capture) (stream : List Capture) :
    results lex isDecimal templates pending stream =
      (runLastsOf continues (pending.toList ++ stream.filter (Visible lex isDecimal ·))).map
        (finalize lex templates) := by
  induction stream generalizing pending with
  | nil =>
    cases pending with
    | none => rfl
    | some c =>
      rw [results, flush, flushResult_finalize]
      rfl
  | cons c stream ih =>
    rw [results]
    by_cases hc : Visible lex isDecimal c
    · obtain ⟨hstate, hresult⟩ := process_of_visible templates pending hc
      rw [hstate, hresult, ih, List.filter_cons_of_pos (by simpa using hc)]
      cases pending with
      | none => rfl
      | some old =>
        simp only [Option.toList_some, List.singleton_append, runLastsOf, runLasts]
        split
        · rfl
        · rfl
    · obtain ⟨hstate, hresult⟩ := process_of_not_visible templates pending hc
      rw [hstate, hresult, ih, List.filter_cons_of_neg (by simpa using hc)]
      rfl

end Process

/-- A message as it is typed out: growing texts, the last of them the whole message. -/
structure Message where
  frames : List Capture
  ne_nil : frames ≠ []
  grows : frames.IsChain fun a b => continues a b

namespace Message

variable (m : Message)

def first : Capture := m.frames.head m.ne_nil

def final : Capture := m.frames.getLast m.ne_nil

theorem runLastsOf_frames (rest : List Capture) :
    runLastsOf continues (m.frames ++ rest) = runLasts continues m.final rest := by
  obtain ⟨frames, hne, hgrows⟩ := m
  cases frames with
  | nil => exact absurd rfl hne
  | cons a l => exact runLasts_append hgrows rest

end Message

/-- The text of no message starts out with the whole text of the message before it. -/
def Separated (messages : List Message) : Prop :=
  messages.IsChain fun m m' => continues m.final m'.first = false

instance (messages : List Message) : Decidable (Separated messages) :=
  inferInstanceAs (Decidable (List.IsChain _ _))

theorem runLasts_flatMap (c : Capture) (m : Message) (messages : List Message) :
    runLasts continues c ((m :: messages).flatMap (·.frames)) =
      if continues c m.first then runLastsOf continues ((m :: messages).flatMap (·.frames))
      else c :: runLastsOf continues ((m :: messages).flatMap (·.frames)) := by
  obtain ⟨frames, hne, hgrows⟩ := m
  cases frames with
  | nil => exact absurd rfl hne
  | cons a l =>
    rw [List.flatMap_cons, List.cons_append, runLasts]
    rfl

theorem length_runLastsOf_le (messages : List Message) :
    (runLastsOf continues (messages.flatMap (·.frames))).length ≤ messages.length := by
  induction messages with
  | nil => exact le_rfl
  | cons m messages ih =>
    rw [List.flatMap_cons, m.runLastsOf_frames]
    cases messages with
    | nil => exact le_rfl
    | cons m' messages =>
      rw [runLasts_flatMap]
      simp only [List.length_cons] at ih ⊢
      split
      · omega
      · simp only [List.length_cons]
        omega

theorem runLastsOf_messages (messages : List Message) :
    (Separated messages →
      runLastsOf continues (messages.flatMap (·.frames)) = messages.map (·.final)) ∧
    (¬ Separated messages →
      (runLastsOf continues (messages.flatMap (·.frames))).length < messages.length) := by
  induction messages with
  | nil => exact ⟨fun _ => rfl, fun h => absurd List.IsChain.nil h⟩
  | cons m messages ih =>
    obtain ⟨hsep, hmerged⟩ := ih
    rw [List.flatMap_cons, m.runLastsOf_frames]
    cases messages with
    | nil => exact ⟨fun _ => rfl, fun h => absurd (List.IsChain.singleton m) h⟩
    | cons m' messages =>
      rw [runLasts_flatMap, Separated, List.isChain_cons_cons, ← Separated]
      by_cases hcont : continues m.final m'.first = true
      · rw [if_pos hcont]
        refine ⟨fun h => ?_, fun _ => ?_⟩
        · rw [h.1] at hcont
          cases hcont
        · have hle := length_runLastsOf_le (m' :: messages)
          simp only [List.length_cons] at hle ⊢
          omega
      · rw [if_neg hcont]
        refine ⟨fun h => ?_, fun h => ?_⟩
        · rw [hsep h.2]
          rfl
        · have hnot : ¬ Separated (m' :: messages) := fun hrest =>
            h ⟨Bool.eq_false_iff.2 hcont, hrest⟩
          have hlt := hmerged hnot
          simp only [List.length_cons] at hlt ⊢
          omega

section Shows

variable (lex : Lexicon) (isDecimal : Char → Bool)

/-- The frames of a stream that show one message; blank frames and menu screens may come between
them. -/
def Segment.Shows (segment : List Capture) (m : Message) : Prop :=
  segment.filter (Visible lex isDecimal ·) = m.frames

instance (segment : List Capture) (m : Message) :
    Decidable (Segment.Shows lex isDecimal segment m) :=
  inferInstanceAs (Decidable (_ = _))

/-- The messages are shown one after another, with a blank frame between two of them. -/
inductive Shows : List Capture → List Message → Prop
  | none {stream : List Capture} (h : ∀ c ∈ stream, ¬ Visible lex isDecimal c) : Shows stream []
  | last {segment : List Capture} {m : Message} (h : Segment.Shows lex isDecimal segment m) :
      Shows segment [m]
  | next {segment stream : List Capture} {m m' : Message} {messages : List Message}
      {blank : Capture} (h : Segment.Shows lex isDecimal segment m) (hblank : blank.words = [])
      (hrest : Shows stream (m' :: messages)) :
      Shows (segment ++ blank :: stream) (m :: m' :: messages)

variable {lex isDecimal}

theorem Shows.filter_eq {stream : List Capture} {messages : List Message}
    (h : Shows lex isDecimal stream messages) :
    stream.filter (Visible lex isDecimal ·) = messages.flatMap (·.frames) := by
  induction h with
  | none h => exact List.filter_eq_nil_iff.2 fun c hc => by simpa using h c hc
  | last h =>
    rw [List.flatMap_cons, List.flatMap_nil, List.append_nil]
    exact h
  | next h hblank _ ih =>
    rw [List.filter_append, List.filter_cons_of_neg (by simp [Visible, hblank]), h, ih]
    rfl

/-- The stream yields the matches of the messages' final texts, each once and in order, exactly
when no message starts out with all of the text before it. -/
theorem results_messages_iff (lex : Lexicon) (isDecimal : Char → Bool) (templates : List Template)
    (stream : List Capture) (messages : List Message) (h : Shows lex isDecimal stream messages) :
    results lex isDecimal templates none stream =
        messages.map (fun m => finalize lex templates m.final) ↔
      Separated messages := by
  obtain ⟨hsep, hmerged⟩ := runLastsOf_messages messages
  rw [results_eq, h.filter_eq]
  constructor
  · intro heq
    by_contra hnot
    have hlt := hmerged hnot
    have hlen := congrArg List.length heq
    simp only [Option.toList_none, List.nil_append, List.length_map] at hlen
    omega
  · intro hmessages
    rw [Option.toList_none, List.nil_append, hsep hmessages, List.map_map]
    rfl

end Shows

def caption (words : List String) : Capture := { words := words.map String.toList }

def criticalHit : Template where
  stringId := "STRINGID_CRITICALHIT"
  idValue := 217
  constantName := "sText_CriticalHit"
  tokens := ["A", "critical", "hit", "!"].map literalToken

def criticalHitFull : Capture := caption ["A", "critical", "hit!"]

def criticalHitAtOnce : Message := ⟨[criticalHitFull], by decide, .singleton _⟩

def criticalHitTyped : Message :=
  ⟨[caption ["A"], caption ["A", "crit"], criticalHitFull], by decide, by decide +kernel⟩

theorem results_criticalHit_typed :
    results pikachuLexicon Char.isDigit [criticalHit] none
        (criticalHitAtOnce.frames ++ caption [] :: criticalHitTyped.frames) =
      [finalize pikachuLexicon [criticalHit] criticalHitFull,
        finalize pikachuLexicon [criticalHit] criticalHitFull] := by
  have hshows : Shows pikachuLexicon Char.isDigit
      (criticalHitAtOnce.frames ++ caption [] :: criticalHitTyped.frames)
      [criticalHitAtOnce, criticalHitTyped] :=
    .next (by decide +kernel : Segment.Shows _ _ criticalHitAtOnce.frames criticalHitAtOnce) rfl
      (.last (by decide +kernel : Segment.Shows _ _ criticalHitTyped.frames criticalHitTyped))
  exact (results_messages_iff pikachuLexicon Char.isDigit [criticalHit] _ _ hshows).2
    (by decide +kernel)

/-- Shown at once, the second message is taken for the first, and one of the two matches is lost. -/
theorem repeated_message_lost :
    Shows pikachuLexicon Char.isDigit
        (criticalHitAtOnce.frames ++ caption [] :: criticalHitAtOnce.frames)
        [criticalHitAtOnce, criticalHitAtOnce] ∧
      results pikachuLexicon Char.isDigit [criticalHit] none
          (criticalHitAtOnce.frames ++ caption [] :: criticalHitAtOnce.frames) =
        [finalize pikachuLexicon [criticalHit] criticalHitFull] ∧
      (finalize pikachuLexicon [criticalHit] criticalHitFull).toOption.isSome ∧
      ¬ ∀ stream messages, Shows pikachuLexicon Char.isDigit stream messages →
        results pikachuLexicon Char.isDigit [criticalHit] none stream =
          messages.map fun m => finalize pikachuLexicon [criticalHit] m.final := by
  have hshows : Shows pikachuLexicon Char.isDigit
      (criticalHitAtOnce.frames ++ caption [] :: criticalHitAtOnce.frames)
      [criticalHitAtOnce, criticalHitAtOnce] :=
    .next (by decide +kernel : Segment.Shows _ _ criticalHitAtOnce.frames criticalHitAtOnce) rfl
      (.last (by decide +kernel : Segment.Shows _ _ criticalHitAtOnce.frames criticalHitAtOnce))
  have hresults : results pikachuLexicon Char.isDigit [criticalHit] none
      (criticalHitAtOnce.frames ++ caption [] :: criticalHitAtOnce.frames) =
      [finalize pikachuLexicon [criticalHit] criticalHitFull] := by
    have hlasts : runLastsOf continues (criticalHitAtOnce.frames ++ criticalHitAtOnce.frames) =
        [criticalHitFull] := by decide +kernel
    rw [results_eq, hshows.filter_eq]
    exact congrArg (List.map _) hlasts
  refine ⟨hshows, hresults, by decide +kernel, fun h => ?_⟩
  have htwo := h _ _ hshows
  rw [hresults] at htwo
  exact absurd (congrArg List.length htwo) (by decide)

end NuzlockeSolver.Matcher
