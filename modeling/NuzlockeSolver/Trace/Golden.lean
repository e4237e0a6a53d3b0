import Mathlib.Data.List.Chain
import Mathlib.Data.List.Nodup
import NuzlockeSolver.Question
import NuzlockeSolver.Trace.Recorder

/-!
# Golden traces

A golden trace is the file of one recorded game: a header, the random outcomes, the answers and the
snapshots in the order of the game, and an end line. The validator reads it once, with a counter
for each turn and event. It accepts exactly the traces that are well formed.
-/

namespace NuzlockeSolver.Trace

def formatVersion : Int := 1

def eventName : RngEvent → String
  | .accuracy => "ACCURACY"
  | .crit => "CRIT"
  | .secondaryFires => "SECONDARY_FIRES"
  | .procFires => "PROC_FIRES"
  | .damageRoll => "DAMAGE_ROLL"
  | .psywaveRoll => "PSYWAVE_ROLL"
  | .multiHitCount => "MULTI_HIT_COUNT"
  | .wake => "WAKE"
  | .confusionSnap => "CONFUSION_SNAP"
  | .defrost => "DEFROST"
  | .confusionSelfHit => "CONFUSION_SELF_HIT"
  | .attractImmobilize => "ATTRACT_IMMOBILIZE"
  | .fullParalysis => "FULL_PARALYSIS"
  | .flinch => "FLINCH"
  | .quickClaw => "QUICK_CLAW"
  | .ancientPowerBoost => "ANCIENT_POWER_BOOST"
  | .bindingDuration => "BINDING_DURATION"
  | .rampageDuration => "RAMPAGE_DURATION"
  | .actionSelect => "ACTION_SELECT"
  | .forcedSwitch => "FORCED_SWITCH"
  | .postFaintSwitch => "POST_FAINT_SWITCH"
  | .metronomeMove => "METRONOME_MOVE"
  | .sleepTalkMove => "SLEEP_TALK_MOVE"
  | .assistMove => "ASSIST_MOVE"
  | .acupressureStat => "ACUPRESSURE_STAT"
  | .roarTarget => "ROAR_TARGET"
  | .effectSporeWhich => "EFFECT_SPORE_WHICH"
  | .triAttackStatus => "TRI_ATTACK_STATUS"
  | .moodyStats => "MOODY_STATS"
  | .starfBerryStat => "STARF_BERRY_STAT"
  | .speedTie => "SPEED_TIE"
  | .speedTiebreaker => "SPEED_TIEBREAKER"
  | .randomTarget => "RANDOM_TARGET"

def dumpEvent (event : RngEvent) : String :=
  "\x7b\"__enum__\": \"RNGEvent\", \"name\": \"" ++ eventName event ++ "\", \"value\": " ++
    toString event.code ++ "\x7d"

/-- A character as `repr` prints it between the quotes. Python also escapes the characters of other
alphabets that it does not count as printable. -/
def reprChar (quote c : Char) : String :=
  if c = quote ∨ c = Char.ofNat 92 then String.ofList [Char.ofNat 92, c]
  else if c = Char.ofNat 10 then "\\n"
  else if c = Char.ofNat 13 then "\\r"
  else if c = Char.ofNat 9 then "\\t"
  else if c.toNat < 32 ∨ c.toNat = 127 then
    "\\x" ++ String.ofList [Nat.digitChar (c.toNat / 16), Nat.digitChar (c.toNat % 16)]
  else String.ofList [c]

def pyRepr (s : String) : String :=
  let single := Char.ofNat 39
  let double := Char.ofNat 34
  let quote := if single ∈ s.toList ∧ double ∉ s.toList then double else single
  String.ofList [quote] ++ String.join (s.toList.map (reprChar quote)) ++ String.ofList [quote]

inductive AnswerEvent
  | name (s : String)
  | tagged (event : RngEvent)
deriving DecidableEq

def AnswerEvent.text : AnswerEvent → String
  | name s => s
  | tagged event => dumpEvent event

/-- The answer of a line: the actions of both sides, a slot for each side that switches, the two
stats of Moody, or one integer. -/
inductive Answer
  | actions (side0 side1 : Option (List ExecAction))
  | slots (slot0 slot1 : Option Int)
  | stats (boost drop : Int)
  | value (n : Int)
deriving DecidableEq

structure RngLine where
  turn : Int
  seq : Int
  event : RngEvent
  occurrence : Int
  outcome : Outcome
deriving DecidableEq

structure AnswerLine where
  turn : Int
  event : AnswerEvent
  occurrence : Int
  beforeSeq : Int
  answer : Answer
deriving DecidableEq

inductive TraceLine
  | header (version : Option Int)
  | rng (r : RngLine)
  | answer (a : AnswerLine)
  | snapshot (turn : Option Int) (beforeSeq : Int)
  | finish
  | unknown (t : Option String) (turn : Option Int)
deriving DecidableEq

def RngLine.key (r : RngLine) : Int × RngEvent := (r.turn, r.event)

def AnswerLine.key (a : AnswerLine) : Int × AnswerEvent := (a.turn, a.event)

namespace TraceLine

def isHeader : TraceLine → Bool
  | .header _ => true
  | _ => false

def isFinish : TraceLine → Bool
  | .finish => true
  | _ => false

def isUnknown : TraceLine → Bool
  | .unknown _ _ => true
  | _ => false

def turn? : TraceLine → Option Int
  | .rng r => some r.turn
  | .answer a => some a.turn
  | .snapshot turn _ => turn
  | .unknown _ turn => turn
  | _ => none

def rng? : TraceLine → Option RngLine
  | .rng r => some r
  | _ => none

def seq? (line : TraceLine) : Option Int := line.rng?.map RngLine.seq

def answer? : TraceLine → Option AnswerLine
  | .answer a => some a
  | _ => none

def beforeSeq? : TraceLine → Option Int
  | .answer a => some a.beforeSeq
  | .snapshot _ beforeSeq => some beforeSeq
  | _ => none

end TraceLine

structure Scan where
  rngSeqPrev : Option Int := none
  turnPrev : Option Int := none
  rngOccurrenceNext : Int × RngEvent → Int := fun _ => 0
  answerOccurrenceNext : Int × AnswerEvent → Int := fun _ => 0
  driverBeforeSeqPrev : Option Int := none

def checkLast (passes : Int → Bool) (fault : Int → String) : Option Int → Except String Unit
  | none => .ok ()
  | some prev => if passes prev then .ok () else .error (fault prev)

def checkTurn (i : Nat) (s : Scan) : Option Int → Except String Scan
  | none => .ok s
  | some turn => do
    checkLast (· ≤ turn) (fun prev =>
      s!"validate_trace: turn decreased from {prev} to {turn} at body index {i}") s.turnPrev
    .ok { s with turnPrev := some turn }

def checkBeforeSeq (kind : String) (i : Nat) (s : Scan) (beforeSeq : Int) : Except String Scan := do
  checkLast (· ≤ beforeSeq) (fun prev =>
    s!"validate_trace: {kind} before_seq decreased from {prev} to {beforeSeq} at body index {i}")
    s.driverBeforeSeqPrev
  .ok { s with driverBeforeSeqPrev := some beforeSeq }

def occurrenceGap (kind : String) (i : Nat) (turn : Int) (event : String) (expected got : Int) :
    String :=
  s!"validate_trace: {kind} occurrence gap for (turn={turn}, event={pyRepr event}): " ++
    s!"expected {expected}, got {got} at body index {i}"

def checkRng (i : Nat) (s : Scan) (r : RngLine) : Except String Scan := do
  checkLast (· < r.seq) (fun prev =>
    s!"validate_trace: rng seq not strictly increasing: {prev} → {r.seq} at body index {i}")
    s.rngSeqPrev
  if r.occurrence ≠ s.rngOccurrenceNext r.key then
    .error (occurrenceGap "rng" i r.turn (dumpEvent r.event) (s.rngOccurrenceNext r.key)
      r.occurrence)
  else .ok { s with
    rngSeqPrev := some r.seq
    rngOccurrenceNext :=
      Function.update s.rngOccurrenceNext r.key (s.rngOccurrenceNext r.key + 1) }

def checkAnswer (i : Nat) (s : Scan) (a : AnswerLine) : Except String Scan := do
  let s ← checkBeforeSeq "answer" i s a.beforeSeq
  if a.occurrence ≠ s.answerOccurrenceNext a.key then
    .error (occurrenceGap "answer" i a.turn a.event.text (s.answerOccurrenceNext a.key)
      a.occurrence)
  else .ok { s with
    answerOccurrenceNext :=
      Function.update s.answerOccurrenceNext a.key (s.answerOccurrenceNext a.key + 1) }

def checkFields (i : Nat) (s : Scan) : TraceLine → Except String Scan
  | .rng r => checkRng i s r
  | .answer a => checkAnswer i s a
  | .snapshot _ beforeSeq => checkBeforeSeq "snapshot" i s beforeSeq
  | _ => .ok s

def checkLine (i : Nat) (s : Scan) (line : TraceLine) : Except String Scan :=
  match line with
  | .unknown t _ =>
    let shown := (t.map pyRepr).getD "None"
    .error s!"validate_trace: unknown record type {shown} at body index {i}"
  | _ => do checkFields i (← checkTurn i s line.turn?) line

def checkBody (i : Nat) (s : Scan) : List TraceLine → Except String Unit
  | [] => .ok ()
  | line :: rest => do checkBody (i + 1) (← checkLine i s line) rest

def indicesOf (p : TraceLine → Bool) (records : List TraceLine) : List Nat :=
  (List.range records.length).filter fun i => (records[i]?).any p

def validateTrace (records : List TraceLine) : Except String Unit :=
  if records = [] then .error "validate_trace: record list is empty"
  else
    match indicesOf TraceLine.isHeader records with
    | [] => .error "validate_trace: no 'header' record found"
    | [i] =>
      if i ≠ 0 then .error "validate_trace: 'header' is not the first record"
      else
        match records.head? with
        | some (.header version) =>
          if version ≠ some formatVersion then
            .error ("validate_trace: format_version must be 1, got " ++ showOption version)
          else
            match indicesOf TraceLine.isFinish records with
            | [] => .error "validate_trace: no 'end' record found"
            | [i] =>
              if i ≠ records.length - 1 then .error "validate_trace: 'end' is not the last record"
              else checkBody 0 {} records.tail.dropLast
            | _ => .error "validate_trace: multiple 'end' records found"
        | _ => .error "validate_trace: no 'header' record found"
    | _ => .error "validate_trace: multiple 'header' records found"

/-- What the lines between the header and the end satisfy: turns and snapshot positions never go
down, sequence numbers go up, and each outcome and each answer carries the number of earlier ones of
its turn and event. -/
structure WellOrdered (body : List TraceLine) : Prop where
  known : ∀ line ∈ body, line.isUnknown = false
  turns : (body.filterMap TraceLine.turn?).Pairwise (· ≤ ·)
  seqs : (body.filterMap TraceLine.seq?).Pairwise (· < ·)
  beforeSeqs : (body.filterMap TraceLine.beforeSeq?).Pairwise (· ≤ ·)
  rngNumbered : Numbered RngLine.key RngLine.occurrence (body.filterMap TraceLine.rng?)
  answersNumbered : Numbered AnswerLine.key AnswerLine.occurrence (body.filterMap TraceLine.answer?)

/-- A header, well-ordered lines of the other kinds, and an end. -/
structure WellFormed (records : List TraceLine) (body : List TraceLine) : Prop where
  records_eq : records = .header (some formatVersion) :: body ++ [.finish]
  inner : ∀ line ∈ body, line.isHeader = false ∧ line.isFinish = false
  ordered : WellOrdered body

section Body

theorem filterMap_concat {α β : Type} (f : α → Option β) (l : List α) (a : α) :
    (l ++ [a]).filterMap f = l.filterMap f ++ (f a).toList := by
  rw [List.filterMap_append]
  cases h : f a <;> simp [h]

theorem getLast?_filterMap_concat {α β : Type} (f : α → Option β) (l : List α) (a : α) :
    ((l ++ [a]).filterMap f).getLast? = (f a).or (l.filterMap f).getLast? := by
  rw [filterMap_concat]
  cases f a <;> simp

theorem pairwise_filterMap_concat {α : Type} {R : Int → Int → Prop} [Trans R R R]
    {f : α → Option Int} {l : List α} {a : α} :
    ((l ++ [a]).filterMap f).Pairwise R ↔ (l.filterMap f).Pairwise R ∧
      ∀ x, f a = some x → ∀ y, (l.filterMap f).getLast? = some y → R y x := by
  rw [filterMap_concat, ← List.isChain_iff_pairwise, ← List.isChain_iff_pairwise]
  cases h : f a with
  | none => simp
  | some x => simp [List.isChain_append]

theorem numbered_filterMap_concat {α β κ : Type} [DecidableEq κ] {key : β → κ} {number : β → Int}
    {f : α → Option β} {l : List α} {a : α} :
    Numbered key number ((l ++ [a]).filterMap f) ↔ Numbered key number (l.filterMap f) ∧
      ∀ x, f a = some x → number x = (under key (key x) (l.filterMap f)).length := by
  rw [filterMap_concat]
  cases h : f a with
  | none => simp
  | some x => simp [numbered_concat]

structure Scan.Reads (s : Scan) (done : List TraceLine) : Prop where
  seq : s.rngSeqPrev = (done.filterMap TraceLine.seq?).getLast?
  turn : s.turnPrev = (done.filterMap TraceLine.turn?).getLast?
  rng : ∀ k, s.rngOccurrenceNext k =
    (under RngLine.key k (done.filterMap TraceLine.rng?)).length
  answer : ∀ k, s.answerOccurrenceNext k =
    (under AnswerLine.key k (done.filterMap TraceLine.answer?)).length
  beforeSeq : s.driverBeforeSeqPrev = (done.filterMap TraceLine.beforeSeq?).getLast?

structure Scan.Admits (s : Scan) (line : TraceLine) : Prop where
  known : line.isUnknown = false
  turn : ∀ t, line.turn? = some t → ∀ y, s.turnPrev = some y → y ≤ t
  seq : ∀ n, line.seq? = some n → ∀ y, s.rngSeqPrev = some y → y < n
  beforeSeq : ∀ b, line.beforeSeq? = some b → ∀ y, s.driverBeforeSeqPrev = some y → y ≤ b
  rng : ∀ r, line.rng? = some r → r.occurrence = s.rngOccurrenceNext r.key
  answer : ∀ a, line.answer? = some a → a.occurrence = s.answerOccurrenceNext a.key

def Scan.next (s : Scan) (line : TraceLine) : Scan where
  rngSeqPrev := line.seq?.or s.rngSeqPrev
  turnPrev := line.turn?.or s.turnPrev
  rngOccurrenceNext := line.rng?.elim s.rngOccurrenceNext fun r =>
    Function.update s.rngOccurrenceNext r.key (s.rngOccurrenceNext r.key + 1)
  answerOccurrenceNext := line.answer?.elim s.answerOccurrenceNext fun a =>
    Function.update s.answerOccurrenceNext a.key (s.answerOccurrenceNext a.key + 1)
  driverBeforeSeqPrev := line.beforeSeq?.or s.driverBeforeSeqPrev

theorem Scan.reads_start : ({} : Scan).Reads [] :=
  ⟨rfl, rfl, fun _ => rfl, fun _ => rfl, rfl⟩

theorem length_under_filterMap_concat {α β κ : Type} [DecidableEq κ] {key : β → κ}
    {f : α → Option β} {counts : κ → Int} {l : List α} (a : α)
    (h : ∀ k, counts k = (under key k (l.filterMap f)).length) (k : κ) :
    (f a).elim counts (fun b => Function.update counts (key b) (counts (key b) + 1)) k =
      (under key k ((l ++ [a]).filterMap f)).length := by
  rw [filterMap_concat]
  cases hf : f a with
  | none => simpa using h k
  | some b =>
    by_cases hk : k = key b
    · subst hk
      simp [under_concat_self, h]
    · simp [under_concat_ne (Ne.symm hk), Function.update_of_ne hk, h]

theorem Scan.Reads.next {s : Scan} {done : List TraceLine} (h : s.Reads done) (line : TraceLine) :
    (s.next line).Reads (done ++ [line]) where
  seq := by rw [getLast?_filterMap_concat, ← h.seq]; rfl
  turn := by rw [getLast?_filterMap_concat, ← h.turn]; rfl
  rng := length_under_filterMap_concat line h.rng
  answer := length_under_filterMap_concat line h.answer
  beforeSeq := by rw [getLast?_filterMap_concat, ← h.beforeSeq]; rfl

theorem wellOrdered_nil : WellOrdered [] :=
  ⟨by simp, .nil, .nil, .nil, numbered_nil, numbered_nil⟩

theorem wellOrdered_concat {s : Scan} {done : List TraceLine} (h : s.Reads done)
    {line : TraceLine} : WellOrdered (done ++ [line]) ↔ WellOrdered done ∧ s.Admits line := by
  constructor
  · intro ⟨hknown, hturns, hseqs, hbefore, hrng, hanswers⟩
    obtain ⟨hturns, hturn⟩ := pairwise_filterMap_concat.1 hturns
    obtain ⟨hseqs, hseq⟩ := pairwise_filterMap_concat.1 hseqs
    obtain ⟨hbefore, hnext⟩ := pairwise_filterMap_concat.1 hbefore
    obtain ⟨hrng, hrngNext⟩ := numbered_filterMap_concat.1 hrng
    obtain ⟨hanswers, hanswerNext⟩ := numbered_filterMap_concat.1 hanswers
    refine ⟨⟨fun l hl => hknown l (List.mem_append_left _ hl), hturns, hseqs, hbefore, hrng,
      hanswers⟩, ⟨hknown line (by simp), ?_, ?_, ?_, ?_, ?_⟩⟩
    · rw [h.turn]; exact hturn
    · rw [h.seq]; exact hseq
    · rw [h.beforeSeq]; exact hnext
    · intro r hr
      rw [h.rng]
      exact hrngNext r hr
    · intro a ha
      rw [h.answer]
      exact hanswerNext a ha
  · intro ⟨hd, ha⟩
    have hturn := ha.turn
    have hseq := ha.seq
    have hbefore := ha.beforeSeq
    rw [h.turn] at hturn
    rw [h.seq] at hseq
    rw [h.beforeSeq] at hbefore
    refine ⟨fun l hl => ?_, pairwise_filterMap_concat.2 ⟨hd.turns, hturn⟩,
      pairwise_filterMap_concat.2 ⟨hd.seqs, hseq⟩,
      pairwise_filterMap_concat.2 ⟨hd.beforeSeqs, hbefore⟩,
      numbered_filterMap_concat.2 ⟨hd.rngNumbered, fun r hr => ?_⟩,
      numbered_filterMap_concat.2 ⟨hd.answersNumbered, fun a hr => ?_⟩⟩
    · rcases List.mem_append.1 hl with hl | hl
      · exact hd.known l hl
      · rw [List.mem_singleton.1 hl]
        exact ha.known
    · rw [← h.rng]
      exact ha.rng r hr
    · rw [← h.answer]
      exact ha.answer a hr

theorem checkLast_eq_ok {passes : Int → Bool} {fault : Int → String} {prev : Option Int}
    {u : Unit} : checkLast passes fault prev = .ok u ↔ ∀ y, prev = some y → passes y = true := by
  cases prev with
  | none => simp [checkLast]
  | some y => by_cases h : passes y <;> simp [checkLast, h]

theorem ok_eq_ok {ε α : Type} {a b : α} : (.ok a : Except ε α) = .ok b ↔ b = a :=
  ⟨fun h => (Except.ok.inj h).symm, fun h => congrArg _ h.symm⟩

theorem checkTurn_eq_ok {i : Nat} {s s' : Scan} {turn : Option Int} :
    checkTurn i s turn = .ok s' ↔
      (∀ t, turn = some t → ∀ y, s.turnPrev = some y → y ≤ t) ∧
        s' = { s with turnPrev := turn.or s.turnPrev } := by
  cases turn with
  | none => simp [checkTurn, ok_eq_ok, -Except.ok.injEq]
  | some t => simp [checkTurn, bind_eq_ok, checkLast_eq_ok, ok_eq_ok, -Except.ok.injEq]

theorem checkBeforeSeq_eq_ok {kind : String} {i : Nat} {s s' : Scan} {beforeSeq : Int} :
    checkBeforeSeq kind i s beforeSeq = .ok s' ↔
      (∀ y, s.driverBeforeSeqPrev = some y → y ≤ beforeSeq) ∧
        s' = { s with driverBeforeSeqPrev := some beforeSeq } := by
  simp [checkBeforeSeq, bind_eq_ok, checkLast_eq_ok, ok_eq_ok, -Except.ok.injEq]

theorem checkRng_eq_ok {i : Nat} {s s' : Scan} {r : RngLine} : checkRng i s r = .ok s' ↔
    (∀ y, s.rngSeqPrev = some y → y < r.seq) ∧ r.occurrence = s.rngOccurrenceNext r.key ∧
      s' = { s with
        rngSeqPrev := some r.seq
        rngOccurrenceNext :=
          Function.update s.rngOccurrenceNext r.key (s.rngOccurrenceNext r.key + 1) } := by
  by_cases h : r.occurrence = s.rngOccurrenceNext r.key
  · simp [checkRng, bind_eq_ok, checkLast_eq_ok, h, ok_eq_ok, -Except.ok.injEq]
  · simp [checkRng, bind_eq_ok, h]

theorem checkAnswer_eq_ok {i : Nat} {s s' : Scan} {a : AnswerLine} : checkAnswer i s a = .ok s' ↔
    (∀ y, s.driverBeforeSeqPrev = some y → y ≤ a.beforeSeq) ∧
      a.occurrence = s.answerOccurrenceNext a.key ∧
      s' = { s with
        driverBeforeSeqPrev := some a.beforeSeq
        answerOccurrenceNext :=
          Function.update s.answerOccurrenceNext a.key (s.answerOccurrenceNext a.key + 1) } := by
  unfold checkAnswer
  rw [bind_eq_ok]
  by_cases h : a.occurrence = s.answerOccurrenceNext a.key
  · simp only [checkBeforeSeq_eq_ok]
    constructor
    · intro ⟨s₁, ⟨hlast, hs₁⟩, hs'⟩
      subst hs₁
      rw [if_neg (not_not.2 h)] at hs'
      exact ⟨hlast, h, (Except.ok.inj hs').symm⟩
    · intro ⟨hlast, _, hs'⟩
      exact ⟨_, ⟨hlast, rfl⟩, by rw [if_neg (not_not.2 h), hs']⟩
  · constructor
    · intro ⟨s₁, hs₁, hs'⟩
      obtain ⟨-, rfl⟩ := checkBeforeSeq_eq_ok.1 hs₁
      rw [if_pos h] at hs'
      cases hs'
    · intro ⟨_, h', _⟩
      exact absurd h' h

theorem checkFields_eq_ok {i : Nat} {s s' : Scan} {line : TraceLine} :
    checkFields i s line = .ok s' ↔
      (∀ n, line.seq? = some n → ∀ y, s.rngSeqPrev = some y → y < n) ∧
      (∀ b, line.beforeSeq? = some b → ∀ y, s.driverBeforeSeqPrev = some y → y ≤ b) ∧
      (∀ r, line.rng? = some r → r.occurrence = s.rngOccurrenceNext r.key) ∧
      (∀ a, line.answer? = some a → a.occurrence = s.answerOccurrenceNext a.key) ∧
      s' = { s.next line with turnPrev := s.turnPrev } := by
  cases line with
  | rng r =>
    simp [checkFields, checkRng_eq_ok, Scan.next, TraceLine.seq?, TraceLine.rng?,
      TraceLine.beforeSeq?, TraceLine.answer?]
  | answer a =>
    simp [checkFields, checkAnswer_eq_ok, Scan.next, TraceLine.seq?, TraceLine.rng?,
      TraceLine.beforeSeq?, TraceLine.answer?]
  | snapshot turn beforeSeq =>
    simp [checkFields, checkBeforeSeq_eq_ok, Scan.next, TraceLine.seq?, TraceLine.rng?,
      TraceLine.beforeSeq?, TraceLine.answer?]
  | header version =>
    simp [checkFields, Scan.next, TraceLine.seq?, TraceLine.rng?, TraceLine.beforeSeq?,
      TraceLine.answer?, ok_eq_ok, -Except.ok.injEq]
  | finish =>
    simp [checkFields, Scan.next, TraceLine.seq?, TraceLine.rng?, TraceLine.beforeSeq?,
      TraceLine.answer?, ok_eq_ok, -Except.ok.injEq]
  | unknown t turn =>
    simp [checkFields, Scan.next, TraceLine.seq?, TraceLine.rng?, TraceLine.beforeSeq?,
      TraceLine.answer?, ok_eq_ok, -Except.ok.injEq]

theorem checkLine_eq_ok {i : Nat} {s s' : Scan} {line : TraceLine} :
    checkLine i s line = .ok s' ↔ s.Admits line ∧ s' = s.next line := by
  by_cases hk : line.isUnknown = true
  · constructor
    · intro h
      cases line <;> cases hk
      cases h
    · intro ⟨h, _⟩
      exact absurd (h.known.symm.trans hk) Bool.false_ne_true
  · have hline : checkLine i s line =
        checkTurn i s line.turn? >>= fun s₁ => checkFields i s₁ line := by
      cases line <;> first | rfl | exact absurd rfl hk
    rw [hline, bind_eq_ok]
    simp only [checkTurn_eq_ok, checkFields_eq_ok]
    constructor
    · intro ⟨s₁, ⟨hturn, hs₁⟩, hseq, hbefore, hrng, hanswer, hs'⟩
      subst hs₁
      exact ⟨⟨Bool.not_eq_true _ ▸ hk, hturn, hseq, hbefore, hrng, hanswer⟩, hs'⟩
    · intro ⟨⟨_, hturn, hseq, hbefore, hrng, hanswer⟩, hs'⟩
      exact ⟨_, ⟨hturn, rfl⟩, hseq, hbefore, hrng, hanswer, hs'⟩

theorem WellOrdered.of_append {done rest : List TraceLine} (h : WellOrdered (done ++ rest)) :
    WellOrdered done := by
  obtain ⟨hknown, hturns, hseqs, hbefore, hrng, hanswers⟩ := h
  rw [List.filterMap_append] at hturns hseqs hbefore hrng hanswers
  exact ⟨fun line hl => hknown line (List.mem_append_left _ hl), (List.pairwise_append.1 hturns).1,
    (List.pairwise_append.1 hseqs).1, (List.pairwise_append.1 hbefore).1, hrng.of_append,
    hanswers.of_append⟩

theorem checkBody_eq_ok {i : Nat} {s : Scan} {done rest : List TraceLine} (h : s.Reads done)
    (hd : WellOrdered done) : checkBody i s rest = .ok () ↔ WellOrdered (done ++ rest) := by
  induction rest generalizing i s done with
  | nil => simpa [checkBody] using hd
  | cons line rest ih =>
    rw [checkBody, bind_eq_ok, List.append_cons]
    constructor
    · intro ⟨s', hline, hrest⟩
      obtain ⟨hadmits, rfl⟩ := checkLine_eq_ok.1 hline
      exact (ih (h.next line) ((wellOrdered_concat h).2 ⟨hd, hadmits⟩)).1 hrest
    · intro hall
      have hdone := hall.of_append
      obtain ⟨-, hadmits⟩ := (wellOrdered_concat h).1 hdone
      exact ⟨_, checkLine_eq_ok.2 ⟨hadmits, rfl⟩, (ih (h.next line) hdone).2 hall⟩

end Body

theorem mem_indicesOf {p : TraceLine → Bool} {records : List TraceLine} {i : Nat} :
    i ∈ indicesOf p records ↔ (records[i]?).any p = true := by
  rw [indicesOf, List.mem_filter, List.mem_range, and_iff_right_iff_imp]
  intro h
  by_contra hge
  rw [List.getElem?_eq_none (Nat.le_of_not_lt hge)] at h
  cases h

theorem indicesOf_eq_singleton {p : TraceLine → Bool} {records : List TraceLine} {i : Nat} :
    indicesOf p records = [i] ↔ ∀ j, (records[j]?).any p = true ↔ j = i := by
  constructor
  · intro h j
    rw [← mem_indicesOf, h, List.mem_singleton]
  · intro h
    have hnodup : (indicesOf p records).Nodup := List.nodup_range.filter _
    refine List.perm_singleton.1 ((List.perm_ext_iff_of_nodup hnodup (List.nodup_singleton i)).2
      fun j => ?_)
    rw [mem_indicesOf, h, List.mem_singleton]

/-- In a list that starts with one header and stops with one end the lines between are others. -/
theorem split_records {records : List TraceLine}
    (hheader : ∀ j, (records[j]?).any TraceLine.isHeader = true ↔ j = 0)
    (hfinish : ∀ j, (records[j]?).any TraceLine.isFinish = true ↔ j = records.length - 1) :
    ∃ version body, records = .header version :: body ++ [.finish] ∧
      ∀ line ∈ body, line.isHeader = false ∧ line.isFinish = false := by
  cases records with
  | nil => exact absurd ((hheader 0).2 rfl) (by simp)
  | cons first rest =>
    have hfirst : first.isHeader = true := by simpa using (hheader 0).2 rfl
    cases rest using List.reverseRecOn with
    | nil =>
      have hlast : first.isFinish = true := by simpa using (hfinish 0).2 rfl
      cases first <;> cases hfirst
      cases hlast
    | append_singleton body last =>
      have hlast : last.isFinish = true := by simpa using (hfinish (body.length + 1)).2 (by simp)
      cases first <;> cases hfirst
      cases last <;> cases hlast
      refine ⟨_, body, rfl, fun line hline => ?_⟩
      obtain ⟨j, hj, rfl⟩ := List.getElem_of_mem hline
      have hline : (.header ‹_› :: (body ++ [.finish]))[j + 1]? = some body[j] := by
        rw [List.getElem?_cons_succ, List.getElem?_append_left hj, List.getElem?_eq_getElem hj]
      have h₁ := hheader (j + 1)
      have h₂ := hfinish (j + 1)
      rw [hline] at h₁ h₂
      simp only [Option.any_some, List.length_cons, List.length_append, List.length_nil] at h₁ h₂
      refine ⟨Bool.eq_false_iff.2 fun h => ?_, Bool.eq_false_iff.2 fun h => ?_⟩
      · have := h₁.1 h
        omega
      · have := h₂.1 h
        omega

theorem any_records {p : TraceLine → Bool} {first last : TraceLine} {body : List TraceLine}
    (h : ∀ line ∈ body, p line = false) (j : Nat) :
    ((first :: body ++ [last])[j]?).any p = true ↔
      j = 0 ∧ p first = true ∨ j = body.length + 1 ∧ p last = true := by
  cases j with
  | zero => simp
  | succ j =>
    rw [List.cons_append, List.getElem?_cons_succ]
    rcases Nat.lt_trichotomy j body.length with hj | rfl | hj
    · rw [List.getElem?_append_left hj, List.getElem?_eq_getElem hj, Option.any_some,
        h _ (List.getElem_mem hj)]
      simp
      omega
    · simp
    · rw [List.getElem?_eq_none (by simp; omega)]
      simp
      omega

/-- The validator accepts the well-formed traces and no others. -/
theorem validateTrace_iff (records : List TraceLine) :
    validateTrace records = .ok () ↔ ∃ body, WellFormed records body := by
  constructor
  · intro h
    unfold validateTrace at h
    split at h
    · cases h
    split at h
    · cases h
    · rename_i i hheaders
      split at h
      · cases h
      rename_i hi
      obtain rfl := not_not.1 hi
      split at h
      · rename_i version hhead
        split at h
        · cases h
        rename_i hversion
        obtain rfl := not_not.1 hversion
        split at h
        · cases h
        · rename_i i hfinishes
          split at h
          · cases h
          rename_i hi
          obtain rfl := not_not.1 hi
          obtain ⟨version, body, rfl, hinner⟩ := split_records
            (indicesOf_eq_singleton.1 hheaders) (indicesOf_eq_singleton.1 hfinishes)
          cases hhead
          refine ⟨body, rfl, hinner, ?_⟩
          have hbody : (TraceLine.header (some formatVersion) :: body ++
              [TraceLine.finish]).tail.dropLast = body := by simp
          rw [hbody] at h
          simpa using (checkBody_eq_ok Scan.reads_start wellOrdered_nil).1 h
        · cases h
      · cases h
    · cases h
  · intro ⟨body, hrecords, hinner, hordered⟩
    have hheaders : indicesOf TraceLine.isHeader records = [0] := by
      rw [indicesOf_eq_singleton, hrecords]
      intro j
      rw [any_records fun line hl => (hinner line hl).1]
      simp [TraceLine.isHeader]
    have hfinishes : indicesOf TraceLine.isFinish records = [records.length - 1] := by
      rw [indicesOf_eq_singleton, hrecords]
      intro j
      rw [any_records fun line hl => (hinner line hl).2]
      simp [TraceLine.isFinish]
    have hbody : records.tail.dropLast = body := by simp [hrecords]
    have hhead : records.head? = some (.header (some formatVersion)) := by simp [hrecords]
    unfold validateTrace
    rw [if_neg (by simp [hrecords]), hheaders]
    simp only [ne_eq, not_true_eq_false, if_false, hhead, hfinishes, hbody]
    exact (checkBody_eq_ok Scan.reads_start wellOrdered_nil).2 hordered

section Recorded

def TraceRecord.rngLine (r : TraceRecord) : RngLine :=
  ⟨r.turn, r.seq, r.event, r.occurrence, r.outcome⟩

def TraceRecord.line (r : TraceRecord) : TraceLine := .rng r.rngLine

theorem filterMap_line {α : Type} (f : TraceLine → Option α) (g : TraceRecord → α)
    (h : ∀ r, f (TraceRecord.line r) = some (g r)) (l : List TraceRecord) :
    (l.map TraceRecord.line).filterMap f = l.map g := by
  rw [List.filterMap_map]
  simp [h]

theorem turns_stampFrom (before l : List JournalEntry) :
    (stampFrom before l).map TraceRecord.turn = l.map JournalEntry.turn := by
  induction l generalizing before with
  | nil => rfl
  | cons e l ih =>
    rw [stampFrom, List.map_cons, List.map_cons, ih]
    rfl

theorem seqs_stampFrom (before l : List JournalEntry) :
    (stampFrom before l).map TraceRecord.seq = List.range' before.length l.length := by
  induction l generalizing before with
  | nil => rfl
  | cons e l ih =>
    rw [stampFrom, List.map_cons, ih, List.length_append, List.length_singleton, List.length_cons,
      List.range'_succ]
    rfl

theorem keys_stampFrom (before l : List JournalEntry) :
    ((stampFrom before l).map TraceRecord.rngLine).map RngLine.key =
      l.map JournalEntry.key := by
  induction l generalizing before with
  | nil => rfl
  | cons e l ih =>
    rw [stampFrom, List.map_cons, List.map_cons, List.map_cons, ih]
    rfl

theorem numbered_stampFrom (l : List JournalEntry) :
    Numbered RngLine.key RngLine.occurrence ((stampFrom [] l).map TraceRecord.rngLine) := by
  induction l using List.reverseRecOn with
  | nil => exact numbered_nil
  | append_singleton l e ih =>
    rw [stampFrom_append, List.map_append]
    refine numbered_concat.2 ⟨ih, ?_⟩
    have hlength : (under RngLine.key e.key ((stampFrom [] l).map TraceRecord.rngLine)).length =
        (under JournalEntry.key e.key l).length := by
      rw [length_under, length_under, keys_stampFrom]
    exact congrArg Int.ofNat hlength.symm

theorem wellOrdered_recorder {j : Journal} (h : j.Timed) :
    WellOrdered (j.recorder.records.map TraceRecord.line) where
  known := by
    intro line hline
    obtain ⟨r, -, rfl⟩ := List.mem_map.1 hline
    rfl
  turns := by
    rw [filterMap_line TraceLine.turn? TraceRecord.turn fun _ => rfl]
    exact (turns_stampFrom [] j.entries).symm ▸ List.pairwise_map.2 h.sorted
  seqs := by
    rw [filterMap_line TraceLine.seq? (fun r => (r.seq : Int)) fun _ => rfl]
    have hseqs : (j.recorder.records.map TraceRecord.seq).Pairwise (· < ·) :=
      (seqs_stampFrom [] j.entries).symm ▸ List.pairwise_lt_range'
    exact List.pairwise_map.2 ((List.pairwise_map.1 hseqs).imp Int.ofNat_lt.2)
  beforeSeqs := by
    rw [List.filterMap_map]
    simp [Function.comp_def, TraceRecord.line, TraceLine.beforeSeq?]
  rngNumbered := by
    rw [filterMap_line TraceLine.rng? TraceRecord.rngLine fun _ => rfl]
    exact numbered_stampFrom j.entries
  answersNumbered := by
    rw [List.filterMap_map]
    simp [Function.comp_def, TraceRecord.line, TraceLine.answer?, numbered_nil]

/-- A session records its journal, raising when the journal does, and the validator accepts the
trace of what it recorded. -/
theorem session_records (p : Session) :
    p.run {} = (p.keep {}).map Journal.recorder ∧
      ∀ r, p.run {} = .ok r →
        validateTrace (.header (some formatVersion) :: r.records.map TraceRecord.line ++
          [.finish]) = .ok () := by
  have hrun : p.run {} = (p.keep {}).map Journal.recorder := run_recorder p Journal.timed_empty
  refine ⟨hrun, fun r hr => ?_⟩
  obtain ⟨j, hj, rfl⟩ := map_eq_ok.1 (hrun.symm.trans hr)
  refine (validateTrace_iff _).2 ⟨_, rfl, fun line hline => ?_,
    wellOrdered_recorder (keep_timed p Journal.timed_empty hj).1⟩
  obtain ⟨r, -, rfl⟩ := List.mem_map.1 hline
  exact ⟨rfl, rfl⟩

end Recorded

end NuzlockeSolver.Trace
