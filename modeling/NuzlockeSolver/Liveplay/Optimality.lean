import Mathlib.Data.List.Lex
import NuzlockeSolver.Liveplay.Prefilter

/-!
# The cheapest segmentation

A segmentation cuts the words into one span for each segment of the template. The alignment's
table holds the least cost of all segmentations, and the one it traces back is the cheapest whose
last segment starts earliest, then the one before it, and so on. Only the values of that one are
validated.
-/

namespace NuzlockeSolver.Matcher

open Relax

variable (lex : Lexicon)

/-- The word before the `i`-th ends in the apostrophe word of a phrase, after a name. -/
def FusedBefore (words : List Word) (i : Nat) (first : TemplateToken) : Prop :=
  let prevWord := words.getD (i - 1) []
  let base := prevWord.take (prevWord.length - first.word.length)
  startsWith "'" first.word ∧ 0 < i ∧ (lex.lower first.word).isSuffixOf (lex.lower prevWord) ∧
    3 ≤ base.length ∧ validatePokemonName lex base

/-- What it costs a segment to take the words from `i` up to `stop`. -/
inductive SpanCost (words : List Word) (i stop : Nat) : Segment → Nat → Prop
  | var {tok : TemplateToken} : tok.isVar = true → i < stop → stop ≤ words.length →
      SpanCost words i stop (.slot tok) 0
  | enum {tok : TemplateToken} : tok.isVar = false → i < stop → stop ≤ i + tok.maxWords lex →
      stop ≤ words.length →
      SpanCost words i stop (.slot tok) (choiceDistance lex tok.choices (span words i stop))
  | phrase {first : TemplateToken} {rest : List TemplateToken} : i < stop →
      stop ≤ i + (rest.length + 2) → stop ≤ words.length →
      SpanCost words i stop (.phrase first rest)
        (wordCost lex (span words i stop) (phraseText (first :: rest)))
  | fusedRest {first : TemplateToken} {rest : List TemplateToken} : FusedBefore lex words i first →
      rest ≠ [] → i < stop → stop ≤ i + rest.length → stop ≤ words.length →
      SpanCost words i stop (.phrase first rest)
        (wordCost lex (span words i stop) (phraseText rest))
  | fusedWhole {first : TemplateToken} : FusedBefore lex words i first → stop = i →
      SpanCost words i stop (.phrase first []) 0

/-- The segments take the words between neighbouring bounds, and the last one ends with the last
word. -/
inductive Segmentation (words : List Word) : List Segment → List Nat → Nat → Prop
  | done : Segmentation words [] [words.length] 0
  | take {seg : Segment} {segs : List Segment} {start stop : Nat} {bounds : List Nat}
      {w cost : Nat} : SpanCost lex words start stop seg w →
      Segmentation words segs (stop :: bounds) cost →
      Segmentation words (seg :: segs) (start :: stop :: bounds) (w + cost)

def cutPieces : List Segment → List Nat → List Piece
  | seg :: segs, start :: stop :: bounds => ⟨seg, start, stop⟩ :: cutPieces segs (stop :: bounds)
  | _, _ => []

/-- The values that the slots capture. -/
def cutValues (segs : List Segment) (words : List Word) (constraints : Option Constraints)
    (bounds : List Nat) : List Word :=
  (cutPieces segs bounds).filterMap (capture lex words constraints)

/-- The cheapest segmentation whose last segment starts earliest, then the one before it, and so
on to the first. -/
structure Chosen (t : Template) (words : List Word) (cuts : List Nat) (cost : Nat) : Prop where
  segmentation : Segmentation lex words t.segments (0 :: cuts) cost
  least : ∀ cuts' cost', Segmentation lex words t.segments (0 :: cuts') cost' → cost ≤ cost'
  earliest : ∀ cuts', Segmentation lex words t.segments (0 :: cuts') cost →
    cuts' = cuts ∨ List.Lex (· < ·) (0 :: cuts).reverse (0 :: cuts').reverse

/-- The cost that the table ends with. -/
def alignCost (t : Template) (words : List Word) : Nat :=
  ((alignTable lex t.segments words).get (words.length, t.segments.length)).cost

variable {lex}

theorem mem_ends_iff {n i most stop : Nat} :
    stop ∈ ends n i most ↔ i < stop ∧ stop ≤ i + most ∧ stop ≤ n := by
  refine ⟨mem_ends, fun ⟨hi, hmost, hn⟩ => ?_⟩
  simp only [ends, List.mem_filter, List.mem_map, List.mem_range, decide_eq_true_eq]
  exact ⟨⟨stop - (i + 1), by omega, by omega⟩, hn⟩

theorem mem_fusedSpans_iff {words : List Word} {i stop w : Nat} {first : TemplateToken}
    {rest : List TemplateToken} :
    (stop, w) ∈ fusedSpans lex words i first rest ↔ FusedBefore lex words i first ∧
      (rest = [] ∧ stop = i ∧ w = 0 ∨
        rest ≠ [] ∧ (i < stop ∧ stop ≤ i + rest.length ∧ stop ≤ words.length) ∧
          w = wordCost lex (span words i stop) (phraseText rest)) := by
  unfold fusedSpans FusedBefore
  extract_lets suffix prevWord base
  by_cases hfused : startsWith "'" first.word ∧ 0 < i ∧
      (lex.lower first.word).isSuffixOf (lex.lower prevWord) ∧
        3 ≤ base.length ∧ validatePokemonName lex base
  · rw [if_pos hfused]
    cases rest with
    | nil =>
      rw [List.isEmpty_nil, if_pos rfl, List.mem_singleton, Prod.mk.injEq]
      constructor
      · rintro ⟨hstop, hw⟩
        exact ⟨hfused, .inl ⟨rfl, hstop, hw⟩⟩
      · rintro ⟨-, ⟨-, hstop, hw⟩ | ⟨hne, -⟩⟩
        · exact ⟨hstop, hw⟩
        · exact absurd rfl hne
    | cons next rest =>
      rw [if_neg (by simp), List.mem_map]
      constructor
      · rintro ⟨stop', hstop, heq⟩
        obtain ⟨rfl, rfl⟩ := Prod.mk.inj heq
        exact ⟨hfused, .inr ⟨List.cons_ne_nil _ _, mem_ends_iff.1 hstop, rfl⟩⟩
      · rintro ⟨-, ⟨hnil, -⟩ | ⟨-, hstop, rfl⟩⟩
        · cases hnil
        · exact ⟨stop, mem_ends_iff.2 hstop, rfl⟩
  · rw [if_neg hfused]
    exact ⟨fun h => absurd h List.not_mem_nil, fun h => absurd h.1 hfused⟩

theorem mem_segmentSpans_iff {words : List Word} {i stop w : Nat} {seg : Segment} :
    (stop, w) ∈ segmentSpans lex words i seg ↔ SpanCost lex words i stop seg w := by
  cases seg with
  | slot tok =>
    rw [segmentSpans]
    cases hvar : tok.isVar with
    | true =>
      rw [if_pos rfl, List.mem_map]
      constructor
      · rintro ⟨stop', hstop, heq⟩
        obtain ⟨rfl, rfl⟩ := Prod.mk.inj heq
        obtain ⟨hi, -, hn⟩ := mem_ends_iff.1 hstop
        exact .var hvar hi hn
      · intro h
        cases h with
        | var _ hi hn => exact ⟨stop, mem_ends_iff.2 ⟨hi, by omega, hn⟩, rfl⟩
        | enum henum => cases henum.symm.trans hvar
    | false =>
      rw [if_neg (by simp), List.mem_map]
      constructor
      · rintro ⟨stop', hstop, heq⟩
        obtain ⟨rfl, rfl⟩ := Prod.mk.inj heq
        obtain ⟨hi, hmost, hn⟩ := mem_ends_iff.1 hstop
        exact .enum hvar hi hmost hn
      · intro h
        cases h with
        | var hnot => cases hnot.symm.trans hvar
        | enum _ hi hmost hn => exact ⟨stop, mem_ends_iff.2 ⟨hi, hmost, hn⟩, rfl⟩
  | phrase first rest =>
    rw [segmentSpans, List.mem_append, List.mem_map, mem_fusedSpans_iff]
    constructor
    · rintro (⟨stop', hstop, heq⟩ | ⟨hfused, ⟨rfl, rfl, rfl⟩ | ⟨hne, hstop, rfl⟩⟩)
      · obtain ⟨rfl, rfl⟩ := Prod.mk.inj heq
        obtain ⟨hi, hmost, hn⟩ := mem_ends_iff.1 hstop
        exact .phrase hi hmost hn
      · exact .fusedWhole hfused rfl
      · exact .fusedRest hfused hne hstop.1 hstop.2.1 hstop.2.2
    · intro h
      cases h with
      | phrase hi hmost hn => exact .inl ⟨stop, mem_ends_iff.2 ⟨hi, hmost, hn⟩, rfl⟩
      | fusedRest hfused hne hi hmost hn => exact .inr ⟨hfused, .inr ⟨hne, ⟨hi, hmost, hn⟩, rfl⟩⟩
      | fusedWhole hfused hstop => exact .inr ⟨hfused, .inl ⟨rfl, hstop, rfl⟩⟩

theorem mem_alignEdges_iff {segs : List Segment} {words : List Word} {p q : Point} {w : Nat} :
    (q, w) ∈ alignEdges lex segs words p ↔
      ∃ seg, segs[p.2]? = some seg ∧ q.2 = p.2 + 1 ∧ SpanCost lex words p.1 q.1 seg w := by
  unfold alignEdges
  split
  · rename_i hnone
    simp [hnone]
  · rename_i seg hseg
    rw [List.mem_map]
    constructor
    · rintro ⟨e, he, heq⟩
      obtain ⟨rfl, rfl⟩ := Prod.mk.inj heq
      exact ⟨seg, hseg, rfl, mem_segmentSpans_iff.1 he⟩
    · rintro ⟨seg', hseg', hs, hspan⟩
      obtain rfl := Option.some.inj (hseg.symm.trans hseg')
      obtain ⟨stop, s⟩ := q
      obtain rfl : s = p.2 + 1 := hs
      exact ⟨(stop, w), mem_segmentSpans_iff.2 hspan, rfl⟩

section Walks

variable {segs : List Segment} {words : List Word} {cost : Nat}

def boundsOf (path : List Point) : List Nat := (path.map Prod.fst).reverse

theorem boundsOf_cons (p : Point) (path : List Point) :
    boundsOf (p :: path) = boundsOf path ++ [p.1] := by
  rw [boundsOf, List.map_cons, List.reverse_cons, boundsOf]

theorem head_boundsOf {p : Point} {path : List Point}
    (h : Walk (alignEdges lex segs words) (0, 0) (p :: path) cost) :
    ∃ cuts, boundsOf (p :: path) = 0 :: cuts := by
  generalize hl : p :: path = l at h
  induction h generalizing p path with
  | source =>
    obtain ⟨rfl, rfl⟩ := List.cons.inj hl
    exact ⟨[], rfl⟩
  | step _ _ ih =>
    obtain ⟨rfl, rfl⟩ := List.cons.inj hl
    obtain ⟨cuts, hcuts⟩ := ih rfl
    exact ⟨cuts ++ [p.1], by rw [boundsOf_cons, hcuts, List.cons_append]⟩

/-- A walk continued by a segmentation of the segments that are left is a segmentation. -/
theorem segmentation_of_walk {p : Point} {path : List Point} {bounds : List Nat} {c : Nat}
    (h : Walk (alignEdges lex segs words) (0, 0) (p :: path) cost)
    (hrest : Segmentation lex words (segs.drop p.2) (p.1 :: bounds) c) :
    Segmentation lex words segs (boundsOf (p :: path) ++ bounds) (cost + c) ∧
      cutPieces segs (boundsOf (p :: path) ++ bounds) =
        (pieces segs (p :: path)).reverse ++ cutPieces (segs.drop p.2) (p.1 :: bounds) := by
  generalize hl : p :: path = l at h
  induction h generalizing p path bounds c with
  | source =>
    obtain ⟨rfl, rfl⟩ := List.cons.inj hl
    rw [Nat.zero_add]
    exact ⟨hrest, rfl⟩
  | @step u v p' c' w _ hedge ih =>
    obtain ⟨rfl, rfl⟩ := List.cons.inj hl
    obtain ⟨seg, hseg, hs, hspan⟩ := mem_alignEdges_iff.1 hedge
    have hdrop : segs.drop v.2 = seg :: segs.drop p.2 := by
      obtain ⟨hlt, rfl⟩ := List.getElem?_eq_some_iff.1 hseg
      rw [hs, List.drop_eq_getElem_cons hlt]
    obtain ⟨hsegm, hpieces⟩ := ih (by rw [hdrop]; exact .take hspan hrest) rfl
    rw [boundsOf_cons, List.append_assoc, List.singleton_append, Nat.add_assoc]
    refine ⟨hsegm, ?_⟩
    rw [hpieces, hdrop, cutPieces, pieces, hseg, List.reverse_cons, List.append_assoc,
      List.singleton_append]

theorem walk_of_segmentation {i s c : Nat} {path : List Point} {bounds : List Nat}
    (h : Segmentation lex words (segs.drop s) (i :: bounds) c) (hs : s ≤ segs.length)
    (hwalk : Walk (alignEdges lex segs words) (0, 0) ((i, s) :: path) cost) :
    ∃ path', Walk (alignEdges lex segs words) (0, 0) ((words.length, segs.length) :: path')
        (cost + c) ∧
      boundsOf ((words.length, segs.length) :: path') = boundsOf ((i, s) :: path) ++ bounds := by
  generalize hl : segs.drop s = l at h
  generalize hb : i :: bounds = b at h
  induction h generalizing i s path bounds cost with
  | done =>
    obtain ⟨rfl, rfl⟩ := List.cons.inj hb
    obtain rfl : s = segs.length := le_antisymm hs (List.drop_eq_nil_iff.1 hl)
    exact ⟨path, hwalk, (List.append_nil _).symm⟩
  | @take seg segs' start stop bounds' w c' hspan _ ih =>
    obtain ⟨rfl, rfl⟩ := List.cons.inj hb
    have hlt : s < segs.length := by
      by_contra hge
      rw [List.drop_eq_nil_of_le (by omega)] at hl
      cases hl
    rw [List.drop_eq_getElem_cons hlt] at hl
    obtain ⟨rfl, rfl⟩ := List.cons.inj hl
    have hedge : ((stop, s + 1), w) ∈ alignEdges lex segs words (i, s) :=
      mem_alignEdges_iff.2 ⟨segs[s], List.getElem?_eq_getElem hlt, rfl, hspan⟩
    obtain ⟨path', hwalk', hbounds⟩ := ih hlt (hwalk.step hedge) rfl rfl
    refine ⟨path', by rwa [Nat.add_assoc] at hwalk', ?_⟩
    rw [hbounds, boundsOf_cons, List.append_assoc, List.singleton_append]

theorem segmentation_of_full_walk {path : List Point}
    (h : Walk (alignEdges lex segs words) (0, 0) ((words.length, segs.length) :: path) cost) :
    Segmentation lex words segs (boundsOf ((words.length, segs.length) :: path)) cost ∧
      cutPieces segs (boundsOf ((words.length, segs.length) :: path)) =
        (pieces segs ((words.length, segs.length) :: path)).reverse := by
  have hdone : Segmentation lex words (segs.drop segs.length) [words.length] 0 := by
    rw [List.drop_length]
    exact .done
  obtain ⟨hsegm, hpieces⟩ := segmentation_of_walk h hdone
  rw [List.append_nil] at hsegm hpieces
  rw [List.drop_length] at hpieces
  exact ⟨hsegm, by simpa [cutPieces] using hpieces⟩

theorem full_walk_of_segmentation {cuts : List Nat}
    (h : Segmentation lex words segs (0 :: cuts) cost) :
    ∃ path, Walk (alignEdges lex segs words) (0, 0) ((words.length, segs.length) :: path) cost ∧
      boundsOf ((words.length, segs.length) :: path) = 0 :: cuts := by
  obtain ⟨path, hwalk, hbounds⟩ := walk_of_segmentation (s := 0) h (Nat.zero_le _)
    (@Walk.source Point (alignEdges lex segs words) (0, 0))
  rw [Nat.zero_add] at hwalk
  exact ⟨path, hwalk, hbounds⟩

end Walks

section Chosen

variable {t : Template} {words : List Word} {constraints : Option Constraints} {path : List Point}
  {cuts cuts' : List Nat} {cost cost' : Nat}

theorem walk_snd {segs : List Segment} {p : Point}
    (h : Walk (alignEdges lex segs words) (0, 0) (p :: path) cost) :
    (p :: path).map Prod.snd = (List.range (p.2 + 1)).reverse := by
  generalize hl : p :: path = l at h
  induction h generalizing p path with
  | source =>
    obtain ⟨rfl, rfl⟩ := List.cons.inj hl
    rfl
  | @step u v p' c w _ hedge ih =>
    obtain ⟨rfl, rfl⟩ := List.cons.inj hl
    obtain ⟨seg, -, hs, -⟩ := mem_alignEdges_iff.1 hedge
    rw [List.map_cons, ih rfl, hs, List.range_succ (n := v.2 + 1), List.reverse_append,
      List.reverse_singleton, List.singleton_append]

theorem lex_map_fst {p q : List Point} (h : List.Lex Point.Before p q)
    (hsnd : p.map Prod.snd = q.map Prod.snd) :
    List.Lex (· < ·) (p.map Prod.fst) (q.map Prod.fst) := by
  induction h with
  | nil => cases hsnd
  | cons _ ih => exact .cons (ih (List.cons.inj hsnd).2)
  | rel hbefore =>
    refine .rel ?_
    cases hbefore with
    | left _ _ hlt => exact hlt
    | right _ hlt => exact absurd (List.cons.inj hsnd).1 (ne_of_lt hlt)

variable (constraints) in
theorem Reads.chosen (h : Reads lex t words path cost) :
    ∃ cuts, Chosen lex t words cuts cost ∧
      capturedValues lex t.segments words constraints
        ((words.length, t.segments.length) :: path) =
          cutValues lex t.segments words constraints (0 :: cuts) := by
  obtain ⟨hsegm, hpieces⟩ := segmentation_of_full_walk h.walk
  obtain ⟨cuts, hcuts⟩ := head_boundsOf h.walk
  rw [hcuts] at hsegm hpieces
  refine ⟨cuts, ⟨hsegm, fun cuts' cost' h' => ?_, fun cuts' h' => ?_⟩, ?_⟩
  · obtain ⟨path', hwalk, -⟩ := full_walk_of_segmentation h'
    exact (h.first (not_mem_alignEdges_origin lex) hwalk).1
  · obtain ⟨path', hwalk, hcuts'⟩ := full_walk_of_segmentation h'
    rcases (h.first (not_mem_alignEdges_origin lex) hwalk).2 rfl with rfl | hlex
    · exact .inl (List.cons.inj (hcuts'.symm.trans hcuts)).2
    · rw [← hcuts, ← hcuts', boundsOf, boundsOf, List.reverse_reverse, List.reverse_reverse]
      exact .inr (lex_map_fst (.cons hlex) ((walk_snd h.walk).trans (walk_snd hwalk).symm))
  · rw [capturedValues, cutValues, hpieces]

theorem Chosen.unique (h : Chosen lex t words cuts cost) (h' : Chosen lex t words cuts' cost') :
    cuts = cuts' ∧ cost = cost' := by
  obtain rfl : cost = cost' :=
    le_antisymm (h.least _ _ h'.segmentation) (h'.least _ _ h.segmentation)
  refine ⟨?_, rfl⟩
  rcases h.earliest _ h'.segmentation with heq | hlt
  · exact heq.symm
  rcases h'.earliest _ h.segmentation with heq | hgt
  · exact heq
  · exact absurd hgt (asymm hlt)

theorem alignCost_le (h : Segmentation lex words t.segments (0 :: cuts) cost) :
    alignCost lex t words ≤ cost := by
  obtain ⟨path, hwalk, -⟩ := full_walk_of_segmentation h
  exact (alignTable_settled lex t.segments words).cost_le (not_mem_alignEdges_origin lex)
    (mem_alignOrder_of_edge lex) hwalk

theorem exists_accepts_of_tryAlign {r : MatchResult}
    (h : tryAlign lex t words false constraints = some r) :
    ∃ path cost, Accepts lex t words constraints path cost ∧ r.score = cost ∧
      r.varValues = capturedValues lex t.segments words constraints
        ((words.length, t.segments.length) :: path) := by
  obtain ⟨path, cost, haccepts⟩ := (tryAlign_isSome_iff t words constraints).1 (by rw [h]; rfl)
  refine ⟨path, cost, haccepts, ?_⟩
  obtain ⟨hcost, htrace⟩ := haccepts.reads.table haccepts.finite
  unfold tryAlign at h
  simp only [finalSegment, Bool.false_eq_true, if_false, Bool.not_false, Bool.true_and,
    Bool.not_eq_true'] at h
  rw [if_neg (by rw [hcost]; exact Nat.not_le_of_lt haccepts.finite)] at h
  simp only [hcost, htrace] at h
  rw [if_neg (Nat.not_lt_of_le haccepts.inBudget), if_neg (by simp [haccepts.valid])] at h
  obtain rfl := Option.some.inj h
  exact ⟨rfl, rfl⟩

theorem tryAlign_isSome_iff_chosen : (tryAlign lex t words false constraints).isSome ↔
    ∃ cuts cost, Chosen lex t words cuts cost ∧ cost < infCost ∧ cost ≤ t.budget ∧
      validateVars lex t (cutValues lex t.segments words constraints (0 :: cuts)) constraints := by
  rw [tryAlign_isSome_iff]
  constructor
  · rintro ⟨path, cost, h⟩
    obtain ⟨cuts, hchosen, hvalues⟩ := h.reads.chosen constraints
    exact ⟨cuts, cost, hchosen, h.finite, h.inBudget, by rw [← hvalues]; exact h.valid⟩
  · rintro ⟨cuts, cost, hchosen, hfin, hbudget, hvalid⟩
    obtain ⟨path, hreads⟩ := exists_reads
      (lt_of_le_of_lt (alignCost_le hchosen.segmentation) hfin)
    obtain ⟨cuts', hchosen', hvalues⟩ := hreads.chosen constraints
    obtain ⟨rfl, rfl⟩ := hchosen'.unique hchosen
    exact ⟨path, _, hreads, hfin, hbudget, by rw [hvalues]; exact hvalid⟩

end Chosen

variable (lex)

/-- The table's cost is the least of all segmentations, as far as its infinity reaches; a match
carries the values of the chosen one and its cost; and there is a match exactly when the chosen
one is within the budget and its values are valid. -/
theorem tryAlign_chosen (t : Template) (words : List Word) (constraints : Option Constraints) :
    ((∀ cuts cost, Segmentation lex words t.segments (0 :: cuts) cost →
        alignCost lex t words ≤ cost) ∧
      (alignCost lex t words < infCost →
        ∃ cuts, Segmentation lex words t.segments (0 :: cuts) (alignCost lex t words))) ∧
    (∀ r, tryAlign lex t words false constraints = some r →
      r.score = alignCost lex t words ∧ r.score ≤ t.budget ∧
        ∃ cuts, Chosen lex t words cuts r.score ∧
          r.varValues = cutValues lex t.segments words constraints (0 :: cuts) ∧
            validateVars lex t r.varValues constraints) ∧
    ((tryAlign lex t words false constraints).isSome ↔
      ∃ cuts cost, Chosen lex t words cuts cost ∧ cost < infCost ∧ cost ≤ t.budget ∧
        validateVars lex t (cutValues lex t.segments words constraints (0 :: cuts))
          constraints) := by
  refine ⟨⟨fun cuts cost h => alignCost_le h, fun hfin => ?_⟩, fun r hr => ?_,
    tryAlign_isSome_iff_chosen⟩
  · obtain ⟨path, hreads⟩ := exists_reads hfin
    obtain ⟨cuts, hchosen, -⟩ := hreads.chosen constraints
    exact ⟨cuts, hchosen.segmentation⟩
  · obtain ⟨path, cost, haccepts, rfl, hvalues⟩ := exists_accepts_of_tryAlign hr
    obtain ⟨cuts, hchosen, hcut⟩ := haccepts.reads.chosen constraints
    refine ⟨(haccepts.reads.table haccepts.finite).1.symm, haccepts.inBudget, cuts, hchosen,
      hvalues.trans hcut, ?_⟩
    rw [hvalues]
    exact haccepts.valid

/-- `{B_EFF_NAME_WITH_PREFIX} fell asleep!`, without a "Foe" before the name. -/
def pkmnFellAsleep : Template where
  stringId := "STRINGID_PKMNFELLASLEEP"
  idValue := 35
  constantName := "sText_PkmnFellAsleep"
  tokens :=
    [{ isVar := true, category := .pokemonName, placeholder := "B_EFF_NAME_WITH_PREFIX" },
      literalToken "fell", literalToken "asleep", literalToken "!"]

def mewLexicon : Lexicon := { pikachuLexicon with pokemonNames := ["MEW".toList, "MEWTWO".toList] }

def asleepWords : List Word := ["MEW", "xy", "fell", "asleep", "!"].map String.toList

/-- With the scrap taken as part of the phrase, at three edits of three, the name is valid; the
cheapest segmentation gives the scrap to the name, and nothing is matched. -/
theorem tryAlign_misses_asleep :
    ∃ cuts cost, Segmentation mewLexicon asleepWords pkmnFellAsleep.segments (0 :: cuts) cost ∧
      cost ≤ pkmnFellAsleep.budget ∧
      validateVars mewLexicon pkmnFellAsleep
        (cutValues mewLexicon pkmnFellAsleep.segments asleepWords none (0 :: cuts)) none ∧
      tryAlign mewLexicon pkmnFellAsleep asleepWords false none = none := by
  have hsegs : pkmnFellAsleep.segments =
      [.slot { isVar := true, category := .pokemonName, placeholder := "B_EFF_NAME_WITH_PREFIX" },
        .phrase (literalToken "fell") [literalToken "asleep", literalToken "!"]] := by
    decide +kernel
  have hcost : wordCost mewLexicon (span asleepWords 1 5)
      (phraseText [literalToken "fell", literalToken "asleep", literalToken "!"]) = 3 := by
    decide +kernel
  have hphrase : SpanCost mewLexicon asleepWords 1 5
      (.phrase (literalToken "fell") [literalToken "asleep", literalToken "!"]) 3 := by
    rw [← hcost]
    exact .phrase (by decide) (by decide) (by decide)
  refine ⟨[1, 5], 3, ?_, ?_, ?_, ?_⟩
  · rw [hsegs]
    exact .take (w := 0) (.var rfl (by decide) (by decide)) (.take (w := 3) hphrase .done)
  · decide +kernel
  · decide +kernel
  · decide +kernel

end NuzlockeSolver.Matcher
