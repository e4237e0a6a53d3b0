import NuzlockeSolver.Liveplay.Matcher

/-!
# The alignment that a template chooses

The table of the alignment is a relaxation of a graph of points, whose edges are the words a
segment can take. A template reads a list of words along the canonical walk through the graph: a
cheapest alignment, whose segments start as early as a cheapest alignment allows.
-/

namespace NuzlockeSolver.Matcher

open Relax

variable (lex : Lexicon)

abbrev Point.Before : Point → Point → Prop := Prod.Lex (· < ·) (· < ·)

/-- The number of words that a segment can take at all: only a phrase that is a single apostrophe
word can do without any, and a variable has no limit. -/
def Segment.Takes : Segment → Nat → Prop
  | .phrase first rest, k =>
    k ≤ rest.length + 2 ∧ (k = 0 → rest = [] ∧ startsWith "'" first.word = true)
  | .slot tok, k => 1 ≤ k ∧ (tok.isVar = false → k ≤ tok.maxWords lex)

theorem mem_ends {n i most stop : Nat} (h : stop ∈ ends n i most) :
    i < stop ∧ stop ≤ i + most ∧ stop ≤ n := by
  simp only [ends, List.mem_filter, List.mem_map, List.mem_range, decide_eq_true_eq] at h
  obtain ⟨⟨k, hk, rfl⟩, hn⟩ := h
  omega

theorem mem_fusedSpans {words : List Word} {i stop cost : Nat} {first : TemplateToken}
    {rest : List TemplateToken} (h : (stop, cost) ∈ fusedSpans lex words i first rest) :
    i ≤ stop ∧ stop ≤ i + rest.length ∧ stop ≤ words.length ∧
      (stop = i → rest = [] ∧ startsWith "'" first.word = true) := by
  unfold fusedSpans at h
  extract_lets suffix prevWord base at h
  split at h
  next hfused =>
    -- A word before the `i`-th can only end in the suffix when there is such a word.
    have hi : i ≤ words.length := by
      by_contra hlt
      have hprev : prevWord = [] := by
        simp only [prevWord]
        rw [List.getD_eq_getElem?_getD, List.getElem?_eq_none (by omega), Option.getD_none]
      have hbase := hfused.2.2.2.1
      simp [base, hprev] at hbase
    split at h
    next hrest =>
      obtain ⟨rfl, -⟩ := Prod.mk.inj (List.mem_singleton.1 h)
      exact ⟨le_rfl, Nat.le_add_right _ _, hi, fun _ => ⟨List.isEmpty_iff.1 hrest, hfused.1⟩⟩
    · obtain ⟨stop', hstop, heq⟩ := List.mem_map.1 h
      obtain ⟨rfl, -⟩ := Prod.mk.inj heq
      obtain ⟨h₁, h₂, h₃⟩ := mem_ends hstop
      exact ⟨h₁.le, h₂, h₃, fun heq => absurd heq h₁.ne'⟩
  next => exact absurd h List.not_mem_nil

theorem mem_segmentSpans {words : List Word} {i stop cost : Nat} {seg : Segment}
    (h : (stop, cost) ∈ segmentSpans lex words i seg) :
    i ≤ stop ∧ stop ≤ words.length ∧ seg.Takes lex (stop - i) := by
  cases seg with
  | slot tok =>
    simp only [segmentSpans] at h
    split at h
    next hvar =>
      obtain ⟨stop', hstop, heq⟩ := List.mem_map.1 h
      obtain ⟨rfl, -⟩ := Prod.mk.inj heq
      obtain ⟨h₁, -, h₃⟩ := mem_ends hstop
      exact ⟨h₁.le, h₃, by omega, fun hnot => absurd hvar (by simp [hnot])⟩
    · obtain ⟨stop', hstop, heq⟩ := List.mem_map.1 h
      obtain ⟨rfl, -⟩ := Prod.mk.inj heq
      obtain ⟨h₁, h₂, h₃⟩ := mem_ends hstop
      exact ⟨h₁.le, h₃, by omega, fun _ => by omega⟩
  | phrase first rest =>
    simp only [segmentSpans, List.mem_append, List.mem_map] at h
    rcases h with ⟨stop', hstop, heq⟩ | h
    · obtain ⟨rfl, -⟩ := Prod.mk.inj heq
      obtain ⟨h₁, h₂, h₃⟩ := mem_ends hstop
      exact ⟨h₁.le, h₃, by omega, fun h₀ => by omega⟩
    · obtain ⟨h₁, h₂, h₃, h₄⟩ := mem_fusedSpans lex h
      exact ⟨h₁, h₃, by omega, fun h₀ => h₄ (by omega)⟩

theorem mem_alignEdges {segs : List Segment} {words : List Word} {p q : Point} {w : Nat}
    (h : (q, w) ∈ alignEdges lex segs words p) :
    ∃ seg, segs[p.2]? = some seg ∧ q.2 = p.2 + 1 ∧ p.1 ≤ q.1 ∧ q.1 ≤ words.length ∧
      seg.Takes lex (q.1 - p.1) := by
  unfold alignEdges at h
  split at h
  next => exact absurd h List.not_mem_nil
  next seg hseg =>
    obtain ⟨e, he, heq⟩ := List.mem_map.1 h
    obtain ⟨rfl, -⟩ := Prod.mk.inj heq
    exact ⟨seg, hseg, rfl, mem_segmentSpans lex he⟩

theorem alignEdges_forward {segs : List Segment} {words : List Word} (p q : Point) (w : Nat)
    (h : (q, w) ∈ alignEdges lex segs words p) : Point.Before p q := by
  obtain ⟨seg, -, hs, hi, -⟩ := mem_alignEdges lex h
  obtain ⟨i, s⟩ := p
  obtain ⟨stop, s'⟩ := q
  simp only at hs hi
  rcases hi.lt_or_eq with hlt | rfl
  · exact .left _ _ hlt
  · exact .right _ (by omega)

theorem not_mem_alignEdges_origin {segs : List Segment} {words : List Word} (p : Point)
    (w : Nat) : ((0, 0), w) ∉ alignEdges lex segs words p := by
  intro h
  obtain ⟨seg, -, hs, -⟩ := mem_alignEdges lex h
  exact absurd hs (by simp)

theorem mem_alignOrder {segs : List Segment} {words : List Word} {p : Point} :
    p ∈ alignOrder segs words ↔ p.1 ≤ words.length ∧ p.2 ≤ segs.length := by
  simp only [alignOrder, List.mem_flatMap, List.mem_map, List.mem_range, Nat.lt_succ_iff]
  constructor
  · rintro ⟨i, hi, s, hs, rfl⟩
    exact ⟨hi, hs⟩
  · rintro ⟨hi, hs⟩
    exact ⟨p.1, hi, p.2, hs, rfl⟩

theorem mem_alignOrder_of_edge {segs : List Segment} {words : List Word} (p q : Point) (w : Nat)
    (h : (q, w) ∈ alignEdges lex segs words p) : p ∈ alignOrder segs words := by
  obtain ⟨seg, hseg, -, hi, hn, -⟩ := mem_alignEdges lex h
  obtain ⟨hs, -⟩ := List.getElem?_eq_some_iff.1 hseg
  exact mem_alignOrder.2 ⟨hi.trans hn, hs.le⟩

theorem alignOrder_pairwise (segs : List Segment) (words : List Word) :
    (alignOrder segs words).Pairwise Point.Before := by
  refine List.pairwise_flatMap.2 ⟨fun i _ => ?_, ?_⟩
  · refine List.pairwise_map.2 (List.pairwise_lt_range.imp fun h => ?_)
    exact .right _ h
  · refine List.pairwise_lt_range.imp fun hlt p hp q hq => ?_
    obtain ⟨s, -, rfl⟩ := List.mem_map.1 hp
    obtain ⟨s', -, rfl⟩ := List.mem_map.1 hq
    exact .left _ _ hlt

theorem alignTable_settled (segs : List Segment) (words : List Word) :
    Relax.Settled infCost (alignEdges lex segs words) Point.Before (0, 0) (alignOrder segs words)
      (alignTable lex segs words) :=
  settled_run (alignEdges_forward lex) (not_mem_alignEdges_origin lex)
    (alignOrder_pairwise segs words)

def Reads (t : Template) (words : List Word) (path : List Point) (cost : Nat) : Prop :=
  Canonical (alignEdges lex t.segments words) Point.Before (0, 0)
    ((words.length, t.segments.length) :: path) cost

variable {lex}

theorem walk_length {segs : List Segment} {words : List Word} {p : Point} {path : List Point}
    {cost : Nat} (h : Walk (alignEdges lex segs words) (0, 0) (p :: path) cost) :
    path.length = p.2 := by
  generalize hl : p :: path = l at h
  induction h generalizing p path with
  | source =>
    obtain ⟨rfl, rfl⟩ := List.cons.inj hl
    rfl
  | step _ hedge ih =>
    obtain ⟨rfl, rfl⟩ := List.cons.inj hl
    obtain ⟨seg, -, hs, -⟩ := mem_alignEdges lex hedge
    rw [List.length_cons, ih rfl, hs]

theorem Reads.table {t : Template} {words : List Word} {path : List Point} {cost : Nat}
    (h : Reads lex t words path cost) (hcost : cost < infCost) :
    ((alignTable lex t.segments words).get (words.length, t.segments.length)).cost = cost ∧
      trace (alignTable lex t.segments words) t.segments.length
        (words.length, t.segments.length) = (words.length, t.segments.length) :: path := by
  obtain ⟨h₁, h₂⟩ := (alignTable_settled lex t.segments words).eq_of_canonical
    (not_mem_alignEdges_origin lex) (mem_alignOrder_of_edge lex)
    (WellFounded.prod_lex wellFounded_lt wellFounded_lt) (alignEdges_forward lex) h hcost
  exact ⟨h₁, h₂ _ (walk_length h.walk).le⟩

theorem exists_reads {t : Template} {words : List Word}
    (h : ((alignTable lex t.segments words).get
      (words.length, t.segments.length)).cost < infCost) :
    ∃ path, Reads lex t words path
      ((alignTable lex t.segments words).get (words.length, t.segments.length)).cost := by
  obtain ⟨path, hpath, -⟩ := (alignTable_settled lex t.segments words).canonical
    (not_mem_alignEdges_origin lex) (mem_alignOrder_of_edge lex)
    (WellFounded.prod_lex wellFounded_lt wellFounded_lt) (alignEdges_forward lex) _ h
  exact ⟨path, hpath⟩

structure Accepts (lex : Lexicon) (t : Template) (words : List Word)
    (constraints : Option Constraints) (path : List Point) (cost : Nat) : Prop where
  reads : Reads lex t words path cost
  finite : cost < infCost
  inBudget : cost ≤ t.budget
  valid : validateVars lex t (capturedValues lex t.segments words constraints
    ((words.length, t.segments.length) :: path)) constraints = true

theorem tryAlign_isSome_iff (t : Template) (words : List Word)
    (constraints : Option Constraints) :
    (tryAlign lex t words false constraints).isSome ↔
      ∃ path cost, Accepts lex t words constraints path cost := by
  unfold tryAlign
  simp only [finalSegment, Bool.false_eq_true, if_false, Bool.not_false, Bool.true_and,
    Bool.not_eq_true']
  constructor
  · intro h
    split at h
    next => exact absurd h (by simp)
    next s hs =>
      split at hs
      · cases hs
      next hfin =>
        obtain rfl := Option.some.inj hs
        have hfin := Nat.lt_of_not_le hfin
        obtain ⟨path, hpath⟩ := exists_reads hfin
        have htrace := (hpath.table hfin).2
        split at h
        · exact absurd h (by simp)
        next hbudget =>
          split at h
          · exact absurd h (by simp)
          next hvalid =>
            refine ⟨path, _, hpath, hfin, Nat.le_of_not_lt hbudget, ?_⟩
            rw [htrace] at hvalid
            simpa using hvalid
  · rintro ⟨path, cost, h⟩
    obtain ⟨hcost, htrace⟩ := h.reads.table h.finite
    rw [if_neg (by rw [hcost]; exact Nat.not_le_of_lt h.finite)]
    simp only [hcost, htrace]
    rw [if_neg (Nat.not_lt_of_le h.inBudget), if_neg (by simp [h.valid])]
    rfl

end NuzlockeSolver.Matcher
