import Mathlib.Algebra.BigOperators.Group.List.Basic
import NuzlockeSolver.Liveplay.Alignment

/-!
# The word-count filter

The filter lets a template through when the number of words is between one word for each segment
and an upper bound that grants each slot two words, and each phrase its own words and one more. What
the segments can really take lies further apart: a phrase that is an apostrophe word can be read off
the end of the word before it, and a variable takes any number of words.
-/

namespace NuzlockeSolver.Matcher

open Relax

section Reach

variable (lex : Lexicon) (words : List Word)

def endsInPhrase (first : TemplateToken) : Bool :=
  (List.range (words.length + 1)).any fun i => !(fusedSpans lex words i first []).isEmpty

def Segment.fewest : Segment → Nat
  | .phrase first [] => if endsInPhrase lex words first then 0 else 1
  | _ => 1

def Segment.most : Segment → Nat
  | .phrase _ rest => rest.length + 2
  | .slot tok => if tok.isVar then words.length else tok.maxWords lex

/-- The edits that a segment costs at its best place in the words; `none` stands for no place. -/
def Segment.leastEdits (none : Nat) (seg : Segment) : Nat :=
  (((List.range (words.length + 1)).flatMap fun i =>
    (segmentSpans lex words i seg).map Prod.snd).min?).getD none

def Segment.literals : Segment → Nat
  | .phrase _ rest => rest.length + 1
  | .slot _ => 0

@[simp] theorem Segment.literals_phrase (first : TemplateToken) (rest : List TemplateToken) :
    (Segment.phrase first rest).literals = rest.length + 1 := rfl

@[simp] theorem Segment.literals_slot (tok : TemplateToken) : (Segment.slot tok).literals = 0 := rfl

/-- The segments of a template, each for itself, cannot share out the words within the budget. -/
def OutOfReach (t : Template) : Prop :=
  words.length < (t.segments.map (Segment.fewest lex words)).sum ∨
    (t.segments.map (Segment.most lex words)).sum < words.length ∨
    t.budget < (t.segments.map (Segment.leastEdits lex words (t.budget + 1))).sum

end Reach

theorem TemplateToken.not_isLiteral_iff (tok : TemplateToken) :
    tok.isLiteral = false ↔ tok.isVar = true ∨ tok.isEnum = true := by
  cases hv : tok.isVar <;> simp [TemplateToken.isLiteral, TemplateToken.isEnum, hv]

theorem TemplateToken.not_isVar_of_isEnum {tok : TemplateToken} (h : tok.isEnum = true) :
    tok.isVar = false := by
  simp only [TemplateToken.isEnum, Bool.and_eq_true, Bool.not_eq_true'] at h
  exact h.1

theorem buildSegments_literal {tok : TemplateToken} (h : tok.isLiteral = true)
    (toks : List TemplateToken) :
    (∃ first rest segs, buildSegments toks = .phrase first rest :: segs ∧
      buildSegments (tok :: toks) = .phrase tok (first :: rest) :: segs) ∨
    ((buildSegments toks).head?.all (fun seg => !seg.isPhrase) = true ∧
      buildSegments (tok :: toks) = .phrase tok [] :: buildSegments toks) := by
  rw [buildSegments, if_pos h]
  split
  next first rest segs heq => exact .inl ⟨first, rest, segs, heq, rfl⟩
  next hnot =>
    refine .inr ⟨?_, rfl⟩
    cases hsegs : buildSegments toks with
    | nil => rfl
    | cons seg segs =>
      cases seg with
      | phrase first rest => exact absurd hsegs (hnot first rest segs)
      | slot tok => rfl

theorem buildSegments_slot {tok : TemplateToken} (h : tok.isLiteral = false)
    (toks : List TemplateToken) :
    buildSegments (tok :: toks) = .slot tok :: buildSegments toks := by
  rw [buildSegments, if_neg (by simp [h])]

theorem buildSegments_literals (toks : List TemplateToken) :
    ((buildSegments toks).map Segment.literals).sum = toks.countP (·.isLiteral) := by
  induction toks with
  | nil => rfl
  | cons tok toks ih =>
    cases h : tok.isLiteral with
    | true =>
      rw [List.countP_cons_of_pos h, ← ih]
      rcases buildSegments_literal h toks with ⟨first, rest, segs, hold, hnew⟩ | ⟨-, hnew⟩
      · simp only [hold, hnew, List.map_cons, List.sum_cons, Segment.literals_phrase, List.length_cons]
        omega
      · simp only [hnew, List.map_cons, List.sum_cons, Segment.literals_phrase, List.length_nil]
        omega
    | false =>
      rw [List.countP_cons_of_neg (by simp [h]), ← ih, buildSegments_slot h]
      simp

theorem buildSegments_slots (toks : List TemplateToken) :
    (buildSegments toks).countP (fun seg => !seg.isPhrase) =
      toks.countP (·.isEnum) + toks.countP (·.isVar) := by
  induction toks with
  | nil => rfl
  | cons tok toks ih =>
    cases h : tok.isLiteral with
    | true =>
      have hvar : tok.isVar = false ∧ tok.isEnum = false := by
        simpa using mt (TemplateToken.not_isLiteral_iff tok).2 (by simp [h])
      rw [List.countP_cons_of_neg (by simp [hvar.2]), List.countP_cons_of_neg (by simp [hvar.1]),
        ← ih]
      rcases buildSegments_literal h toks with ⟨first, rest, segs, hold, hnew⟩ | ⟨-, hnew⟩
      · simp [hold, hnew]
      · simp [hnew]
    | false =>
      rw [buildSegments_slot h, List.countP_cons_of_pos (by rfl), ih, List.countP_cons,
        List.countP_cons]
      rcases (TemplateToken.not_isLiteral_iff tok).1 h with hvar | henum
      · have henum : tok.isEnum = false := by simp [TemplateToken.isEnum, hvar]
        simp only [hvar, henum, Bool.false_eq_true, if_false, if_true]
        omega
      · simp only [TemplateToken.not_isVar_of_isEnum henum, henum, Bool.false_eq_true, if_false,
          if_true]
        omega

theorem buildSegments_phrases (toks : List TemplateToken) :
    (buildSegments toks).countP (·.isPhrase) ≤
      (buildSegments toks).countP (fun seg => !seg.isPhrase) +
        if (buildSegments toks).head?.all (fun seg => !seg.isPhrase) then 0 else 1 := by
  induction toks with
  | nil => simp [buildSegments]
  | cons tok toks ih =>
    cases h : tok.isLiteral with
    | true =>
      rcases buildSegments_literal h toks with ⟨first, rest, segs, hold, hnew⟩ | ⟨hhead, hnew⟩
      · rw [hnew, List.countP_cons_of_pos (by rfl), List.countP_cons_of_neg (by simp)]
        rw [hold, List.countP_cons_of_pos (by rfl), List.countP_cons_of_neg (by simp)] at ih
        simpa using ih
      · rw [hnew, List.countP_cons_of_pos (by rfl), List.countP_cons_of_neg (by simp)]
        rw [if_pos hhead] at ih
        simpa using ih
    | false =>
      rw [buildSegments_slot h]
      have : (if (buildSegments toks).head?.all (fun seg => !seg.isPhrase) then 0 else 1) ≤ 1 := by
        split <;> omega
      simp only [List.countP_cons, Segment.isPhrase_slot, List.head?_cons, Option.all_some,
        Bool.not_false, Bool.false_eq_true, if_false, if_true]
      omega

theorem length_eq_countP (segs : List Segment) :
    segs.length = segs.countP (·.isPhrase) + segs.countP fun seg => !seg.isPhrase := by
  simpa using List.length_eq_countP_add_countP (fun seg : Segment => seg.isPhrase)

theorem Template.minWords_eq (t : Template) : t.minWords = t.segments.length := by
  rw [length_eq_countP, Template.segments, buildSegments_slots, Template.minWords,
    Template.phraseSegmentCount, Template.segments, Template.enumCount, Template.varCount]
  omega

theorem Template.phraseSegmentCount_le (t : Template) :
    t.phraseSegmentCount ≤ t.enumCount + t.varCount + 1 := by
  have h := buildSegments_phrases t.tokens
  rw [buildSegments_slots] at h
  have : (if (buildSegments t.tokens).head?.all (fun seg => !seg.isPhrase) then 0 else 1) ≤ 1 := by
    split <;> omega
  simp only [Template.phraseSegmentCount, Template.segments, Template.enumCount,
    Template.varCount]
  omega

variable {lex : Lexicon} {words : List Word}

theorem fewest_le_one (seg : Segment) : seg.fewest lex words ≤ 1 := by
  unfold Segment.fewest
  split
  · split <;> omega
  · exact le_rfl

theorem span_within (none : Nat) {i stop cost : Nat} {seg : Segment}
    (h : (stop, cost) ∈ segmentSpans lex words i seg) :
    i + seg.fewest lex words ≤ stop ∧ stop ≤ i + seg.most lex words ∧
      seg.leastEdits lex words none ≤ cost := by
  obtain ⟨hi, hn, htakes⟩ := mem_segmentSpans lex h
  have hcost : cost ∈ (List.range (words.length + 1)).flatMap fun i =>
      (segmentSpans lex words i seg).map Prod.snd :=
    List.mem_flatMap.2 ⟨i, List.mem_range.2 (by omega), List.mem_map.2 ⟨_, h, rfl⟩⟩
  obtain ⟨least, hleast⟩ := Option.isSome_iff_exists.1
    (List.isSome_min?_of_ne_nil (List.ne_nil_of_mem hcost))
  have hedits : seg.leastEdits lex words none ≤ cost := by
    rw [Segment.leastEdits, hleast, Option.getD_some]
    exact (List.min?_eq_some_iff.1 hleast).2 cost hcost
  have hfewest : seg.fewest lex words ≤ 1 := fewest_le_one seg
  cases seg with
  | slot tok =>
    refine ⟨by have := htakes.1; omega, ?_, hedits⟩
    rw [Segment.most]
    split
    · omega
    · rename_i hvar
      have := htakes.2 (Bool.eq_false_iff.2 hvar)
      omega
  | phrase first rest =>
    refine ⟨?_, by have := htakes.1; rw [Segment.most]; omega, hedits⟩
    obtain hlt | rfl := hi.lt_or_eq
    · omega
    · -- no word of its own: the phrase was read off the word before
      obtain ⟨rfl, -⟩ := htakes.2 (Nat.sub_self i)
      rcases List.mem_append.1 h with hown | hfused
      · obtain ⟨stop, hstop, heq⟩ := List.mem_map.1 hown
        obtain ⟨rfl, -⟩ := Prod.mk.inj heq
        exact absurd (mem_ends hstop).1 (lt_irrefl _)
      · have hends : endsInPhrase lex words first = true :=
          List.any_eq_true.2 ⟨i, List.mem_range.2 (by omega), by
            rw [Bool.not_eq_true', List.isEmpty_eq_false_iff]
            exact List.ne_nil_of_mem hfused⟩
        rw [Segment.fewest, if_pos hends, Nat.add_zero]

theorem walk_within (none : Nat) {segs : List Segment} {p : Point} {path : List Point} {cost : Nat}
    (h : Walk (alignEdges lex segs words) (0, 0) (p :: path) cost) :
    ((segs.take p.2).map (Segment.fewest lex words)).sum ≤ p.1 ∧
      p.1 ≤ ((segs.take p.2).map (Segment.most lex words)).sum ∧
      ((segs.take p.2).map (Segment.leastEdits lex words none)).sum ≤ cost := by
  generalize hl : p :: path = l at h
  induction h generalizing p path with
  | source =>
    obtain ⟨rfl, rfl⟩ := List.cons.inj hl
    simp
  | @step u v p' c w _ hedge ih =>
    obtain ⟨rfl, rfl⟩ := List.cons.inj hl
    obtain ⟨ih₁, ih₂, ih₃⟩ := ih rfl
    obtain ⟨seg, hseg, hs, -, -, -⟩ := mem_alignEdges lex hedge
    have hspan : (p.1, w) ∈ segmentSpans lex words v.1 seg := by
      rw [alignEdges, hseg] at hedge
      obtain ⟨e, he, heq⟩ := List.mem_map.1 hedge
      obtain ⟨rfl, rfl⟩ := Prod.mk.inj heq
      exact he
    obtain ⟨h₁, h₂, h₃⟩ := span_within none hspan
    rw [hs, List.take_add_one, hseg, Option.toList_some]
    simp only [List.map_append, List.map_cons, List.map_nil, List.sum_append, List.sum_cons,
      List.sum_nil]
    exact ⟨by omega, by omega, by omega⟩

theorem not_outOfReach {t : Template} {constraints : Option Constraints}
    (h : (tryAlign lex t words false constraints).isSome) : ¬ OutOfReach lex words t := by
  obtain ⟨path, cost, haccepts⟩ := (tryAlign_isSome_iff t words constraints).1 h
  obtain ⟨h₁, h₂, h₃⟩ := walk_within (t.budget + 1) haccepts.reads.walk
  rw [List.take_length] at h₁ h₂ h₃
  have hbudget := haccepts.inBudget
  rintro (hfew | hmany | hedits)
  · exact absurd h₁ (not_le.2 hfew)
  · exact absurd h₂ (not_le.2 hmany)
  · exact absurd (h₃.trans hbudget) (not_le.2 hedits)

theorem foldl_consider_filter (templates : List Template) (words : List Word)
    (constraints : Option Constraints) (keep : Template → Bool)
    (h : ∀ t ∈ templates, keep t = false → tryAlign lex t words false constraints = none)
    (ranking : Ranking) :
    (templates.filter keep).foldl (consider lex words constraints) ranking =
      templates.foldl (consider lex words constraints) ranking := by
  induction templates generalizing ranking with
  | nil => rfl
  | cons t templates ih =>
    obtain ⟨ht, htemplates⟩ := List.forall_mem_cons.1 h
    rw [List.foldl_cons]
    cases hkeep : keep t with
    | true => rw [List.filter_cons_of_pos hkeep, List.foldl_cons, ih htemplates]
    | false =>
      have hsame : consider lex words constraints ranking t = ranking := by
        rw [consider, ht hkeep, ite_self]
      rw [List.filter_cons_of_neg (by simp [hkeep]), hsame, ih htemplates]

theorem fewest_of_no_apostrophe {seg : Segment}
    (h : ∀ first, seg = .phrase first [] → startsWith "'" first.word = false) :
    seg.fewest lex words = 1 := by
  unfold Segment.fewest
  split
  · rename_i first
    have hnone (i : Nat) : fusedSpans lex words i first [] = [] :=
      if_neg fun hfused => absurd hfused.1 (by simp [h first rfl])
    simp [endsInPhrase, hnone]
  · rfl

theorem sum_most_le (segs : List Segment)
    (h : ∀ tok, Segment.slot tok ∈ segs → tok.isVar = false ∧ tok.maxWords lex ≤ 2) :
    (segs.map (Segment.most lex words)).sum ≤ (segs.map Segment.literals).sum +
      segs.countP (·.isPhrase) + 2 * segs.countP fun seg => !seg.isPhrase := by
  induction segs with
  | nil => exact le_rfl
  | cons seg segs ih =>
    have ih := ih fun tok htok => h tok (List.mem_cons_of_mem _ htok)
    simp only [List.map_cons, List.sum_cons, List.countP_cons] at ih ⊢
    cases seg with
    | phrase first rest =>
      simp only [Segment.most, Segment.literals_phrase, Segment.isPhrase_phrase, Bool.not_true,
        Bool.false_eq_true, if_false, if_true]
      omega
    | slot tok =>
      obtain ⟨hvar, hmost⟩ := h tok List.mem_cons_self
      simp only [Segment.most, Segment.literals_slot, Segment.isPhrase_slot, Bool.not_false,
        Bool.false_eq_true, if_false, if_true, hvar]
      omega

/-- Templates without a lone apostrophe word, without variables and with enumerations of at most two
words are out of reach wherever the filter drops them. -/
theorem outOfReach_of_plain {t : Template}
    (hlone : ∀ first, Segment.phrase first [] ∈ t.segments → startsWith "'" first.word = false)
    (hslot : ∀ tok, Segment.slot tok ∈ t.segments → tok.isVar = false ∧ tok.maxWords lex ≤ 2)
    (hout : ¬ (t.minWords ≤ words.length ∧ words.length ≤ t.mostWords)) :
    OutOfReach lex words t := by
  have hfewest : (t.segments.map (Segment.fewest lex words)).sum = t.minWords := by
    have hone : t.segments.map (Segment.fewest lex words) = t.segments.map fun _ => 1 :=
      List.map_congr_left fun seg hseg =>
        fewest_of_no_apostrophe fun first heq => hlone first (heq ▸ hseg)
    rw [hone, t.minWords_eq]
    simp
  have hmost : (t.segments.map (Segment.most lex words)).sum ≤ _ := sum_most_le t.segments hslot
  have hliterals : (t.segments.map Segment.literals).sum = t.literalCount :=
    buildSegments_literals t.tokens
  have hslots : (t.segments.countP fun seg => !seg.isPhrase) = t.enumCount + t.varCount :=
    buildSegments_slots t.tokens
  have hphrases := t.phraseSegmentCount_le
  rw [hliterals, hslots] at hmost
  rcases not_and_or.1 hout with hfew | hmany
  · exact .inl (by omega)
  · refine .inr (.inl ?_)
    rw [Template.mostWords] at hmany
    rw [Template.phraseSegmentCount] at hphrases
    omega

variable (lex)

/-- The filter changes nothing and drops no template that aligns, when every template that it drops
is out of reach of the words. -/
theorem filterCandidates_exact (templates : List Template) (words : List Word)
    (h : ∀ t ∈ templates, t.minWords ≤ words.length ∧ words.length ≤ t.mostWords ∨
      OutOfReach lex words t) (constraints : Option Constraints) :
    tryFullMatch lex templates words constraints =
        fullMatchOver lex templates words constraints ∧
      ∀ t ∈ templates, (tryAlign lex t words false constraints).isSome →
        t.minWords ≤ words.length ∧ words.length ≤ t.mostWords := by
  have hbounds : ∀ t ∈ templates, (tryAlign lex t words false constraints).isSome →
      t.minWords ≤ words.length ∧ words.length ≤ t.mostWords := fun t ht hsome =>
    (h t ht).resolve_right (not_outOfReach hsome)
  refine ⟨?_, hbounds⟩
  rw [tryFullMatch, fullMatchOver, fullMatchOver, filterCandidates, foldl_consider_filter]
  intro t ht hdropped
  refine Option.not_isSome_iff_eq_none.1 fun hsome => ?_
  exact absurd (hbounds t ht hsome) (of_decide_eq_false hdropped)

def editRow (c : Char) : List Char → Nat → List Nat → List Nat
  | x :: xs, left, diag :: up :: row =>
    let cell := min (min (up + 1) (left + 1)) (if c = x then diag else diag + 1)
    cell :: editRow c xs cell (up :: row)
  | _, _, _ => []

def nextRow (b : Word) (row : List Nat) (c : Char) : List Nat :=
  match row with
  | [] => []
  | first :: _ => (first + 1) :: editRow c b (first + 1) row

def levenshtein (a b : Word) : Nat :=
  (a.foldl (nextRow b) (List.range (b.length + 1))).getLastD 0

def literalToken (word : String) : TemplateToken := { isVar := false, word := word.toList }

/-- `{B_ATK_NAME_WITH_PREFIX}'s {B_BUFF1} rose!`, without a "Foe" before the name. -/
def attackersStatRose : Template where
  stringId := "STRINGID_ATTACKERSSTATROSE"
  idValue := 213
  constantName := "sText_AttackersStatRose"
  tokens :=
    [{ isVar := true, category := .pokemonName, placeholder := "B_ATK_NAME_WITH_PREFIX" },
      literalToken "'s",
      { isVar := false, placeholder := "B_BUFF1"
        choices := ["HP", "ATTACK", "DEFENSE", "SPEED", "SP. ATK", "SP. DEF", "accuracy",
          "evasiveness"].map String.toList },
      literalToken "rose", literalToken "!"]

def pikachuLexicon : Lexicon where
  distance := levenshtein
  lower := List.map Char.toLower
  isSpace := Char.isWhitespace
  isDigit := Char.isDigit
  pokemonNames := ["PIKACHU".toList]
  moveNames := []
  itemNames := []
  abilityNames := []
  statNames := []
  typeNames := []
  trainerClassNames := []
  trainerNames := []

def usedMove : Template where
  stringId := "STRINGID_USEDMOVE"
  idValue := 4
  constantName := "sText_AttackerUsedX"
  tokens :=
    [{ isVar := true, category := .pokemonName, placeholder := "B_ATK_NAME_WITH_PREFIX" },
      literalToken "used", { isVar := true, category := .moveName, placeholder := "B_BUFF2" },
      literalToken "!"]

def usedWords : List Word := ["PIKACHU", "used", "POUND"].map String.toList

theorem filterCandidates_drops_used :
    tryFullMatch pikachuLexicon [attackersStatRose, usedMove] usedWords none =
        fullMatchOver pikachuLexicon [attackersStatRose, usedMove] usedWords none ∧
      ∀ t ∈ [attackersStatRose, usedMove],
        (tryAlign pikachuLexicon t usedWords false none).isSome →
          t.minWords ≤ usedWords.length ∧ usedWords.length ≤ t.mostWords := by
  refine filterCandidates_exact pikachuLexicon [attackersStatRose, usedMove] usedWords ?_ none
  intro t ht
  simp only [List.mem_cons, List.not_mem_nil, or_false] at ht
  obtain rfl | rfl := ht
  · exact .inr (.inl (by decide +kernel))
  · exact .inr (.inl (by decide +kernel))

def roseWords : List Word := ["PIKACHU's", "ATTACK", "rose"].map String.toList

theorem filterCandidates_loses_rose :
    ¬ (tryFullMatch pikachuLexicon [attackersStatRose] roseWords none =
        fullMatchOver pikachuLexicon [attackersStatRose] roseWords none ∧
      ∀ t ∈ [attackersStatRose], (tryAlign pikachuLexicon t roseWords false none).isSome →
        t.minWords ≤ roseWords.length ∧ roseWords.length ≤ t.mostWords) := by
  have hnone : tryFullMatch pikachuLexicon [attackersStatRose] roseWords none = none := by
    decide +kernel
  have hsome : (fullMatchOver pikachuLexicon [attackersStatRose] roseWords none).isSome := by
    decide +kernel
  rintro ⟨hsame, -⟩
  rw [← hsame, hnone] at hsome
  exact absurd hsome (by simp)

end NuzlockeSolver.Matcher
