import NuzlockeSolver.Bucket.Deltas

/-!
# The segments of an axis and the search in them

Two splitters cut the HP axis at the breakpoints, one over the whole axis and one over a given
interval, each with a moving cursor. Both lay consecutive intervals; the second lays what the
first leaves of the interval. The segment of an HP value is found by binary search.
-/

namespace NuzlockeSolver

section Tiles

/-- Consecutive intervals from `lo` to `hi`, without a gap and without an overlap. -/
def Tiles : List HpInterval → Int → Int → Prop
  | [], lo, hi => lo = hi + 1
  | seg :: segs, lo, hi => seg.lo = lo ∧ Tiles segs (seg.hi + 1) hi

variable {segs : List HpInterval} {lo hi : Int}

theorem Tiles.lo_le (h : Tiles segs lo hi) : lo ≤ hi + 1 := by
  induction segs generalizing lo with
  | nil => exact le_of_eq h
  | cons seg segs ih =>
    obtain ⟨hlo, hrest⟩ := h
    have hseg := seg.lo_le_hi
    have hle := ih hrest
    omega

theorem Tiles.exists_mem (h : Tiles segs lo hi) {x : Int} :
    (∃ seg ∈ segs, x ∈ seg) ↔ lo ≤ x ∧ x ≤ hi := by
  induction segs generalizing lo with
  | nil =>
    simp only [List.not_mem_nil, false_and, exists_false, false_iff, not_and]
    rw [Tiles] at h
    omega
  | cons seg segs ih =>
    obtain ⟨hlo, hrest⟩ := h
    have hseg := seg.lo_le_hi
    have hle := hrest.lo_le
    simp only [List.mem_cons, or_and_right, exists_or, exists_eq_left, ih hrest]
    rw [HpInterval.mem_def]
    omega

theorem Tiles.within (h : Tiles segs lo hi) {seg : HpInterval} (hseg : seg ∈ segs) :
    lo ≤ seg.lo ∧ seg.hi ≤ hi :=
  ⟨(h.exists_mem.1 ⟨seg, hseg, seg.lo_mem⟩).1, (h.exists_mem.1 ⟨seg, hseg, seg.hi_mem⟩).2⟩

theorem Tiles.pairwise (h : Tiles segs lo hi) : segs.Pairwise fun a b => a.hi < b.lo := by
  induction segs generalizing lo with
  | nil => exact .nil
  | cons seg segs ih =>
    obtain ⟨-, hrest⟩ := h
    refine List.pairwise_cons.2 ⟨fun seg' hseg' => ?_, ih hrest⟩
    have hlo := (hrest.within hseg').1
    omega

end Tiles

section Splitters

theorem sortedSet_eq_self {l : List Int} (h : l.Pairwise (· < ·)) : sortedSet l = l := by
  have hnodup : l.Nodup := h.imp fun hlt => ne_of_lt hlt
  rw [sortedSet, List.dedup_eq_self.2 hnodup]
  exact (h.imp fun hlt => le_of_lt hlt).insertionSort_eq

variable {bps : List Int} {cursor hi maxHp : Int}

theorem tiles_splitRuns (hsorted : bps.Pairwise (· < ·))
    (hin : ∀ b ∈ bps, cursor ≤ b ∧ b ≤ hi) (hcursor : cursor ≤ hi + 1) :
    Tiles (splitRuns hi bps cursor) cursor hi := by
  induction bps generalizing cursor with
  | nil =>
    rw [splitRuns]
    split
    · exact ⟨rfl, rfl⟩
    · rw [Tiles]
      omega
  | cons b bps ih =>
    obtain ⟨hb, hrest⟩ := List.pairwise_cons.1 hsorted
    have hbin := hin b List.mem_cons_self
    have htail := @ih (b + 1) hrest
      (fun b' hb' => ⟨hb b' hb', (hin b' (List.mem_cons_of_mem _ hb')).2⟩) (by omega)
    rw [splitRuns]
    split
    · refine ⟨rfl, ?_, htail⟩
      simp [HpInterval.singleton]
    · refine ⟨?_, htail⟩
      simp only [HpInterval.singleton]
      omega

theorem buildSegments_eq_splitRuns (hsorted : bps.Pairwise (· < ·))
    (hin : ∀ b ∈ bps, cursor ≤ b) :
    buildSegments maxHp bps cursor = splitRuns maxHp bps cursor := by
  induction bps generalizing cursor with
  | nil => rfl
  | cons b bps ih =>
    obtain ⟨hb, hrest⟩ := List.pairwise_cons.1 hsorted
    rw [buildSegments, splitRuns, if_pos (hin b List.mem_cons_self),
      ih hrest (fun b' hb' => hb b' hb')]

theorem singleton_mem_splitRuns {b : Int} (hb : b ∈ bps) :
    .singleton b ∈ splitRuns hi bps cursor := by
  induction bps generalizing cursor with
  | nil => cases hb
  | cons b' bps ih =>
    rw [splitRuns]
    rcases List.mem_cons.1 hb with rfl | hb
    · exact List.mem_append_right _ List.mem_cons_self
    · exact List.mem_append_right _ (List.mem_cons_of_mem _ (ih hb))

namespace HpInterval

def inter (a b : HpInterval) : Option HpInterval :=
  if h : max a.lo b.lo ≤ min a.hi b.hi then some ⟨max a.lo b.lo, min a.hi b.hi, h⟩ else none

theorem inter_eq_none {a b : HpInterval} : a.inter b = none ↔ ∀ x ∈ a, x ∉ b := by
  have ha := a.lo_le_hi
  have hb := b.lo_le_hi
  rw [inter]
  split
  · rename_i h
    simp only [reduceCtorEq, false_iff, not_forall, not_not]
    exact ⟨max a.lo b.lo, mem_def.2 ⟨by omega, by omega⟩, mem_def.2 ⟨by omega, by omega⟩⟩
  · simp only [true_iff, mem_def]
    omega

theorem inter_eq_some {a b : HpInterval} {l h : Int} (hlh : l ≤ h) (hl : max a.lo b.lo = l)
    (hh : min a.hi b.hi = h) : a.inter b = some ⟨l, h, hlh⟩ := by
  subst hl hh
  exact dif_pos hlh

end HpInterval

theorem filterMap_inter_gap (iv : HpInterval) (cursor top : Int) :
    (if h : cursor ≤ top then [(⟨cursor, top, h⟩ : HpInterval)] else []).filterMap iv.inter =
      if h : max cursor iv.lo ≤ min top iv.hi then [⟨max cursor iv.lo, min top iv.hi, h⟩]
      else [] := by
  have hiv := iv.lo_le_hi
  by_cases h : cursor ≤ top
  · rw [dif_pos h]
    by_cases h' : max cursor iv.lo ≤ min top iv.hi
    · rw [dif_pos h', List.filterMap_cons_some
        (HpInterval.inter_eq_some h' (max_comm _ _) (min_comm _ _)), List.filterMap_nil]
    · rw [dif_neg h', List.filterMap_cons_none, List.filterMap_nil]
      exact dif_neg (by simpa only [max_comm, min_comm] using h')
  · rw [dif_neg h, dif_neg (by omega), List.filterMap_nil]

theorem filterMap_inter_splitRuns (hsorted : bps.Pairwise (· < ·))
    (hin : ∀ b ∈ bps, cursor ≤ b) {iv : HpInterval} (hmax : iv.hi ≤ maxHp) :
    (splitRuns maxHp bps cursor).filterMap iv.inter =
      splitRuns iv.hi (bps.filter fun b => iv.lo ≤ b ∧ b ≤ iv.hi) (max cursor iv.lo) := by
  have hiv := iv.lo_le_hi
  induction bps generalizing cursor with
  | nil =>
    rw [splitRuns, filterMap_inter_gap, List.filter_nil, splitRuns]
    simp only [min_eq_right hmax]
  | cons b bps ih =>
    obtain ⟨hb, hrest⟩ := List.pairwise_cons.1 hsorted
    have hcursor := hin b List.mem_cons_self
    have htail := @ih (b + 1) hrest fun b' hb' => hb b' hb'
    have hgap : (if h : cursor < b then [(⟨cursor, b - 1, by omega⟩ : HpInterval)] else []) =
        if h : cursor ≤ b - 1 then [⟨cursor, b - 1, h⟩] else [] := by
      by_cases h : cursor < b
      · rw [dif_pos h, dif_pos (by omega)]
      · rw [dif_neg h, dif_neg (by omega)]
    rw [splitRuns, List.filterMap_append, hgap, filterMap_inter_gap]
    rcases lt_or_ge b iv.lo with hbelow | hlo
    · -- the breakpoint and the run below it lie under the interval
      have hnone : iv.inter (.singleton b) = none :=
        HpInterval.inter_eq_none.2 fun x hx hxb => by
          rw [HpInterval.mem_def] at hx
          rw [HpInterval.mem_singleton] at hxb
          omega
      rw [dif_neg (by omega), List.nil_append, List.filterMap_cons_none hnone, htail,
        List.filter_cons_of_neg (by simp; omega)]
      congr 1
      omega
    rcases le_or_gt b iv.hi with hhi | habove
    · have hsome : iv.inter (.singleton b) = some (.singleton b) :=
        HpInterval.inter_eq_some le_rfl (max_eq_right hlo) (min_eq_right hhi)
      rw [List.filterMap_cons_some hsome, htail,
        List.filter_cons_of_pos (by simpa using ⟨hlo, hhi⟩), splitRuns,
        max_eq_left (show iv.lo ≤ b + 1 by omega)]
      congr 1
      simp only [min_eq_left (show b - 1 ≤ iv.hi by omega)]
      by_cases h : max cursor iv.lo < b
      · rw [dif_pos h, dif_pos (by omega)]
      · rw [dif_neg h, dif_neg (by omega)]
    · -- the run below the breakpoint is the last that meets the interval
      have hnone : iv.inter (.singleton b) = none :=
        HpInterval.inter_eq_none.2 fun x hx hxb => by
          rw [HpInterval.mem_def] at hx
          rw [HpInterval.mem_singleton] at hxb
          omega
      have hfilter : (bps.filter fun b => iv.lo ≤ b ∧ b ≤ iv.hi) = [] :=
        List.filter_eq_nil_iff.2 fun b' hb' => by
          have hlt := hb b' hb'
          simp only [decide_eq_true_eq]
          omega
      have hempty : splitRuns iv.hi [] (max (b + 1) iv.lo) = [] := dif_neg (by omega)
      rw [List.filterMap_cons_none hnone, htail, hfilter, hempty, List.append_nil,
        List.filter_cons_of_neg (by simp; omega), hfilter, splitRuns]
      simp only [min_eq_right (show iv.hi ≤ b - 1 by omega)]

end Splitters

section SegmentOf

/-- The loop of the binary search, over the window from `lo` to `hi`; `-1` when it is empty. -/
def segmentSearch (segs : List HpInterval) (hp lo hi : Int) : Int :=
  if h : lo ≤ hi then
    let mid := (lo + hi) / 2
    match segs[mid.toNat]? with
    | none => -1
    | some seg =>
      if hp < seg.lo then segmentSearch segs hp lo (mid - 1)
      else if seg.hi < hp then segmentSearch segs hp (mid + 1) hi
      else mid
  else -1
termination_by (hi + 1 - lo).toNat

def segmentOf (segs : List HpInterval) (hp : Int) : Int :=
  if segs = [] then -1 else segmentSearch segs hp 0 (segs.length - 1)

variable {segs : List HpInterval} {hp : Int}

theorem index_unique (hasc : segs.Pairwise fun a b => a.hi < b.lo) {i j : ℕ}
    {a b : HpInterval} (hi : segs[i]? = some a) (hj : segs[j]? = some b) (ha : hp ∈ a)
    (hb : hp ∈ b) : i = j := by
  obtain ⟨hilt, rfl⟩ := List.getElem?_eq_some_iff.1 hi
  obtain ⟨hjlt, rfl⟩ := List.getElem?_eq_some_iff.1 hj
  rw [HpInterval.mem_def] at ha hb
  rcases lt_trichotomy i j with hlt | heq | hgt
  · have hlt := List.pairwise_iff_getElem.1 hasc i j hilt hjlt hlt
    omega
  · exact heq
  · have hlt := List.pairwise_iff_getElem.1 hasc j i hjlt hilt hgt
    omega

theorem segmentSearch_complete (hasc : segs.Pairwise fun a b => a.hi < b.lo) {k : ℕ}
    {seg : HpInterval} (hk : segs[k]? = some seg) (hmem : hp ∈ seg) {lo hi : Int} (hlo0 : 0 ≤ lo)
    (hlo : lo ≤ k) (hhi : k ≤ hi) (hlen : hi < segs.length) :
    segmentSearch segs hp lo hi = k := by
  obtain ⟨hklt, hkseg⟩ := List.getElem?_eq_some_iff.1 hk
  rw [HpInterval.mem_def] at hmem
  induction lo, hi using segmentSearch.induct segs hp with
  | case1 lo hi h mid hnone =>
    have hge := List.getElem?_eq_none_iff.1 hnone
    omega
  | case2 lo hi h mid mseg hmseg hbelow ih =>
    rw [segmentSearch, dif_pos h]
    obtain ⟨hm, hmeq⟩ := List.getElem?_eq_some_iff.1 hmseg
    -- the middle segment lies above the value, so the one sought is to its left
    have hkm : k < mid.toNat := by
      by_contra hle
      rcases (not_lt.1 hle).lt_or_eq with hlt | heq
      · have hord := List.pairwise_iff_getElem.1 hasc _ k hm hklt hlt
        rw [hkseg, hmeq] at hord
        have hseg := mseg.lo_le_hi
        omega
      · subst heq
        rw [hkseg] at hmeq
        subst hmeq
        omega
    simp only [mid] at hmseg
    simp only [hmseg, if_pos hbelow]
    exact ih hlo0 hlo (by omega) (by omega)
  | case3 lo hi h mid mseg hmseg hbelow habove ih =>
    rw [segmentSearch, dif_pos h]
    obtain ⟨hm, hmeq⟩ := List.getElem?_eq_some_iff.1 hmseg
    have hmk : mid.toNat < k := by
      by_contra hle
      rcases (not_lt.1 hle).lt_or_eq with hlt | heq
      · have hord := List.pairwise_iff_getElem.1 hasc k _ hklt hm hlt
        rw [hkseg, hmeq] at hord
        have hseg := mseg.lo_le_hi
        omega
      · subst heq
        rw [hkseg] at hmeq
        subst hmeq
        omega
    simp only [mid] at hmseg
    simp only [hmseg, if_neg hbelow, if_pos habove]
    exact ih (by omega) (by omega) hhi hlen
  | case4 lo hi h mid mseg hmseg hbelow habove =>
    have hmid : 0 ≤ mid := by omega
    have hkm : k = mid.toNat := index_unique hasc hk hmseg (HpInterval.mem_def.2 hmem)
      (HpInterval.mem_def.2 ⟨by omega, by omega⟩)
    rw [segmentSearch, dif_pos h]
    simp only [mid] at hmseg
    simp only [hmseg, if_neg hbelow, if_neg habove]
    omega
  | case5 lo hi h => omega

theorem segmentOf_eq (hasc : segs.Pairwise fun a b => a.hi < b.lo) {k : ℕ} {seg : HpInterval}
    (hk : segs[k]? = some seg) (hmem : hp ∈ seg) : segmentOf segs hp = k := by
  obtain ⟨hklt, -⟩ := List.getElem?_eq_some_iff.1 hk
  have hne : segs ≠ [] := List.ne_nil_of_length_pos (by omega)
  rw [segmentOf, if_neg hne]
  exact segmentSearch_complete hasc hk hmem le_rfl (by omega) (by omega) (by omega)

end SegmentOf

section Axis

namespace HpAxis

variable (axis : HpAxis)

/-- The index of the segment of an HP value, `-1` outside the axis. -/
def segmentOf (hp : Int) : Int := NuzlockeSolver.segmentOf axis.segments hp

theorem segments_eq (hmax : 0 ≤ axis.maxHp) :
    axis.segments = splitRuns axis.maxHp axis.points 0 := by
  rw [segments, if_neg (not_lt.2 hmax)]
  exact buildSegments_eq_splitRuns axis.sorted fun b hb => (axis.bounded b hb).1

theorem tiles_segments (hmax : 0 ≤ axis.maxHp) : Tiles axis.segments 0 axis.maxHp := by
  rw [axis.segments_eq hmax]
  exact tiles_splitRuns axis.sorted axis.bounded (by omega)

theorem singleton_mem_segments (hmax : 0 ≤ axis.maxHp) {b : Int} (hb : b ∈ axis.points) :
    .singleton b ∈ axis.segments := by
  rw [axis.segments_eq hmax]
  exact singleton_mem_splitRuns hb

theorem segment_unique (hmax : 0 ≤ axis.maxHp) {a b : HpInterval} (ha : a ∈ axis.segments)
    (hb : b ∈ axis.segments) {x : Int} (hxa : x ∈ a) (hxb : x ∈ b) : a = b := by
  obtain ⟨i, hi, rfl⟩ := List.mem_iff_getElem.1 ha
  obtain ⟨j, hj, rfl⟩ := List.mem_iff_getElem.1 hb
  have hij := index_unique (axis.tiles_segments hmax).pairwise (List.getElem?_eq_getElem hi)
    (List.getElem?_eq_getElem hj) hxa hxb
  subst hij
  rfl

theorem splitAtBreakpoints_eq_inter (hmax : 0 ≤ axis.maxHp) {iv : HpInterval} (hlo : 0 ≤ iv.lo)
    (hhi : iv.hi ≤ axis.maxHp) :
    splitAtBreakpoints iv axis.points = axis.segments.filterMap iv.inter := by
  rw [splitAtBreakpoints_eq, sortedSet_eq_self (axis.sorted.filter _), axis.segments_eq hmax,
    filterMap_inter_splitRuns axis.sorted (fun b hb => (axis.bounded b hb).1) hhi,
    max_eq_right hlo]

end HpAxis

/-- The segments of a normalised axis partition it with each breakpoint alone, the search finds
the one segment of each value, and the splitter of an interval agrees with them. -/
theorem segments_partition (raw : List Int) (maxHp : Int) (hmax : 0 ≤ maxHp) :
    let axis := normalize raw maxHp
    axis.segments.Pairwise (fun a b => a.hi < b.lo) ∧
    (∀ x, (∃ seg ∈ axis.segments, x ∈ seg) ↔ 0 ≤ x ∧ x ≤ maxHp) ∧
    (∀ b ∈ axis.points, .singleton b ∈ axis.segments ∧
      ∀ seg ∈ axis.segments, b ∈ seg → seg = .singleton b) ∧
    (∀ hp, 0 ≤ hp → hp ≤ maxHp → ∃ i : ℕ, axis.segmentOf hp = i ∧
      (∃ seg, axis.segments[i]? = some seg ∧ hp ∈ seg) ∧
      ∀ j seg, axis.segments[j]? = some seg → hp ∈ seg → j = i) ∧
    ∀ iv : HpInterval, 0 ≤ iv.lo → iv.hi ≤ maxHp →
      splitAtBreakpoints iv axis.points = axis.segments.filterMap iv.inter := by
  intro axis
  have htiles : Tiles axis.segments 0 maxHp := axis.tiles_segments hmax
  refine ⟨htiles.pairwise, fun x => htiles.exists_mem, fun b hb => ?_, fun hp hlo hhi => ?_,
    fun iv hlo hhi => axis.splitAtBreakpoints_eq_inter hmax hlo hhi⟩
  · have halone := axis.singleton_mem_segments hmax hb
    exact ⟨halone, fun seg hseg hmem =>
      axis.segment_unique hmax hseg halone hmem (HpInterval.mem_singleton.2 rfl)⟩
  · obtain ⟨seg, hseg, hmem⟩ := htiles.exists_mem.2 ⟨hlo, hhi⟩
    obtain ⟨i, hi⟩ := List.mem_iff_getElem?.1 hseg
    exact ⟨i, segmentOf_eq htiles.pairwise hi hmem, ⟨seg, hi, hmem⟩,
      fun j seg' hj hmem' => index_unique htiles.pairwise hj hi hmem' hmem⟩

theorem segments_partition_adjacent :
    let axis := normalize [6, 0, 3, 4, 9, -1] 6
    axis.segments.map (fun seg => (seg.lo, seg.hi)) = [(0, 0), (1, 2), (3, 3), (4, 4), (5, 5),
      (6, 6)] ∧
    (∀ b ∈ axis.points, .singleton b ∈ axis.segments ∧
      ∀ seg ∈ axis.segments, b ∈ seg → seg = .singleton b) ∧
    splitAtBreakpoints ⟨2, 5, by decide⟩ axis.points =
      axis.segments.filterMap (HpInterval.inter ⟨2, 5, by decide⟩) := by
  have h := segments_partition [6, 0, 3, 4, 9, -1] 6 (by decide)
  exact ⟨by decide, h.2.2.1, h.2.2.2.2 ⟨2, 5, by decide⟩ (by decide) (by decide)⟩

end Axis

end NuzlockeSolver
