import NuzlockeSolver.Bucket.Expand
import NuzlockeSolver.Bucket.Segments

/-!
# The pieces of an expansion's input

The input interval is cut after each breakpoint plus delta strictly inside it, and after each HP
value that the largest hit could reach. Three boundary conventions meet here, and the low end of
the interval is a cut of the second kind only.
-/

namespace NuzlockeSolver

section SplitAxis

variable {hi cur : Int} {pts : List Int}

theorem tiles_splitAxis (h : cur ≤ hi) : Tiles (splitAxis hi pts cur h) cur hi := by
  induction pts generalizing cur with
  | nil => exact ⟨rfl, rfl⟩
  | cons x pts ih =>
    rw [splitAxis]
    split
    · exact ih h
    · exact ⟨rfl, ih _⟩

theorem exists_mem_both_splitAxis (hsorted : pts.Pairwise (· < ·))
    (hin : ∀ x ∈ pts, cur ≤ x ∧ x < hi) (h : cur ≤ hi) {x : Int} :
    (∃ piece ∈ splitAxis hi pts cur h, x ∈ piece ∧ x + 1 ∈ piece) ↔
      cur ≤ x ∧ x < hi ∧ x ∉ pts := by
  induction pts generalizing cur with
  | nil =>
    simp only [splitAxis, List.mem_singleton, exists_eq_left, HpInterval.mem_def,
      List.not_mem_nil, not_false_eq_true, and_true]
    omega
  | cons y pts ih =>
    obtain ⟨hy, hrest⟩ := List.pairwise_cons.1 hsorted
    have hyin := hin y List.mem_cons_self
    have hpts : x ∈ pts → y + 1 ≤ x := fun hx => by
      have hlt := hy x hx
      omega
    have htail := @ih (y + 1) hrest
      (fun x' hx' => ⟨hy x' hx', (hin x' (List.mem_cons_of_mem _ hx')).2⟩) (by omega)
    rw [splitAxis, dif_neg (by omega)]
    simp only [List.mem_cons, or_and_right, exists_or, exists_eq_left, htail, not_or]
    rw [HpInterval.mem_def, HpInterval.mem_def]
    dsimp only
    constructor
    · rintro (⟨hbelow, hnext⟩ | ⟨hge, hlt, hnot⟩)
      · exact ⟨hbelow.1, by omega, by omega, fun hx => by have hge := hpts hx; omega⟩
      · exact ⟨by omega, hlt, by omega, hnot⟩
    · rintro ⟨hge, hlt, hne, hnot⟩
      by_cases hxy : x < y
      · exact .inl ⟨⟨hge, by omega⟩, by omega, by omega⟩
      · exact .inr ⟨by omega, hlt, hnot⟩

structure IsPiece (cut : Int → Prop) (iv piece : HpInterval) : Prop where
  within : iv.lo ≤ piece.lo ∧ piece.hi ≤ iv.hi
  lo_cut : piece.lo = iv.lo ∨ cut (piece.lo - 1)
  hi_cut : piece.hi = iv.hi ∨ cut piece.hi
  uncut : ∀ x, piece.lo ≤ x → x < piece.hi → ¬cut x

theorem mem_splitAxis (hsorted : pts.Pairwise (· < ·)) (hin : ∀ x ∈ pts, cur ≤ x ∧ x < hi)
    (h : cur ≤ hi) {piece : HpInterval} :
    piece ∈ splitAxis hi pts cur h ↔ IsPiece (· ∈ pts) ⟨cur, hi, h⟩ piece := by
  induction pts generalizing cur with
  | nil =>
    rw [splitAxis, List.mem_singleton]
    constructor
    · rintro rfl
      exact ⟨⟨le_rfl, le_rfl⟩, .inl rfl, .inl rfl, fun _ _ _ => List.not_mem_nil⟩
    · rintro ⟨-, hlo | hlo, hhi | hhi, -⟩
      · exact HpInterval.ext hlo hhi
      all_goals exact absurd ‹_› List.not_mem_nil
  | cons y pts ih =>
    obtain ⟨hy, hrest⟩ := List.pairwise_cons.1 hsorted
    have hyin := hin y List.mem_cons_self
    have hge : ∀ x ∈ y :: pts, y ≤ x := List.forall_mem_cons.2 ⟨le_rfl, fun x hx => (hy x hx).le⟩
    have htail := @ih (y + 1) hrest
      (fun x hx => ⟨hy x hx, (hin x (List.mem_cons_of_mem _ hx)).2⟩) (by omega)
    rw [splitAxis, dif_neg (by omega), List.mem_cons, htail]
    constructor
    · rintro (rfl | htail)
      · exact ⟨⟨le_rfl, hyin.2.le⟩, .inl rfl, .inr List.mem_cons_self,
          fun x _ hlt hx => absurd (hge x hx) (not_le.2 hlt)⟩
      · have hwithin := htail.within
        dsimp only at hwithin
        refine ⟨⟨by dsimp only; omega, hwithin.2⟩, .inr ?_,
          htail.hi_cut.imp_right (List.mem_cons_of_mem _), fun x hlo hlt hx => ?_⟩
        · rcases htail.lo_cut with hlo | hlo
          · rw [hlo, Int.add_sub_cancel]
            exact List.mem_cons_self
          · exact List.mem_cons_of_mem _ hlo
        · rcases List.mem_cons.1 hx with rfl | hx
          · omega
          · exact htail.uncut x hlo hlt hx
    · rintro ⟨hwithin, hlo, hhi, huncut⟩
      dsimp only at hwithin hlo hhi
      have hpiece := piece.lo_le_hi
      by_cases hle : piece.lo ≤ y
      · have hend : piece.hi ≤ y := by
          by_contra hlt
          exact huncut y hle (not_le.1 hlt) List.mem_cons_self
        have hstart : piece.lo = cur := by
          refine hlo.resolve_right fun hmem => ?_
          have hge := hge _ hmem
          omega
        have hstop : y ≤ piece.hi := by
          rcases hhi with hhi | hhi
          · omega
          · exact hge _ hhi
        exact .inl (HpInterval.ext hstart (le_antisymm hend hstop))
      · have hstart : piece.lo - 1 ∈ y :: pts := hlo.resolve_left (by omega)
        have hstop : piece.hi = hi ∨ piece.hi ∈ pts :=
          hhi.imp_right fun hmem => (List.mem_cons.1 hmem).resolve_left (by omega)
        refine .inr ⟨⟨by dsimp only; omega, hwithin.2⟩, ?_, hstop, fun x hx hlt hmem =>
          huncut x hx hlt (List.mem_cons_of_mem _ hmem)⟩
        rcases List.mem_cons.1 hstart with heq | hmem
        · exact .inl (by dsimp only; omega)
        · exact .inr hmem

end SplitAxis

section InputPieces

def assembledSplits (breakpoints deltas : List Int) (maxDmg : Int) (iv : HpInterval) : List Int :=
  sortedSet ((derivedSplitPoints breakpoints deltas iv.lo iv.hi ++
    killZoneSingletons maxDmg iv).filter fun x => iv.lo ≤ x ∧ x < iv.hi)

def inputPieces (breakpoints deltas : List Int) (maxDmg : Int) (iv : HpInterval) :
    List HpInterval :=
  splitAxis iv.hi (assembledSplits breakpoints deltas maxDmg iv) iv.lo iv.lo_le_hi

theorem splitPoints_eq {Ctx : Type} (X : ExpandContext Ctx)
    (hskip : X.options.skipDerivedSplits = false) (axis : HpAxis) (deltas : List Int)
    (maxDmg : Int) (iv : HpInterval) :
    splitPoints X axis deltas maxDmg iv = assembledSplits axis.points deltas maxDmg iv := by
  rw [splitPoints, if_neg (by simp [hskip]), assembledSplits]

variable {breakpoints deltas : List Int} {maxDmg : Int} {iv : HpInterval}

theorem mem_derivedSplitPoints {lo hi x : Int} :
    x ∈ derivedSplitPoints breakpoints deltas lo hi ↔
      (∃ b ∈ breakpoints, ∃ d ∈ deltas, b + d = x) ∧ lo < x ∧ x < hi := by
  simp [derivedSplitPoints]

theorem mem_killZoneSingletons {x : Int} :
    x ∈ killZoneSingletons maxDmg iv ↔ (1 ≤ x ∧ x ≤ maxDmg) ∧ x ∈ iv := by
  rw [killZoneSingletons, HpInterval.mem_def]
  split
  · simp only [List.not_mem_nil, false_iff]
    omega
  · simp only [List.mem_map, List.bind_eq_flatMap, List.pure_def, List.mem_flatMap,
      List.mem_range, List.mem_singleton]
    constructor
    · rintro ⟨_, ⟨k, hk, rfl⟩, rfl⟩
      omega
    · intro hx
      exact ⟨x - max 1 iv.lo, ⟨(x - max 1 iv.lo).toNat, by omega, by omega⟩, by omega⟩

theorem mem_assembledSplits {x : Int} :
    x ∈ assembledSplits breakpoints deltas maxDmg iv ↔
      (iv.lo ≤ x ∧ x < iv.hi) ∧
        ((iv.lo < x ∧ ∃ b ∈ breakpoints, ∃ d ∈ deltas, b + d = x) ∨ 1 ≤ x ∧ x ≤ maxDmg) := by
  rw [assembledSplits, mem_sortedSet, List.mem_filter, List.mem_append, mem_derivedSplitPoints,
    mem_killZoneSingletons, HpInterval.mem_def, decide_eq_true_eq]
  constructor
  · rintro ⟨⟨hsum, hlt, -⟩ | ⟨hkill, -⟩, hx⟩
    · exact ⟨hx, .inl ⟨hlt, hsum⟩⟩
    · exact ⟨hx, .inr hkill⟩
  · rintro ⟨hx, ⟨hlt, hsum⟩ | hkill⟩
    · exact ⟨.inl ⟨hsum, hlt, hx.2⟩, hx⟩
    · exact ⟨.inr ⟨hkill, hx.1, le_of_lt hx.2⟩, hx⟩

theorem exists_mem_both_inputPieces {x : Int} :
    (∃ piece ∈ inputPieces breakpoints deltas maxDmg iv, x ∈ piece ∧ x + 1 ∈ piece) ↔
      iv.lo ≤ x ∧ x < iv.hi ∧ x ∉ assembledSplits breakpoints deltas maxDmg iv :=
  exists_mem_both_splitAxis (pairwise_sortedSet _) (fun _ hx => (mem_assembledSplits.1 hx).1) _

/-- A cut runs above `h`: above the low end a breakpoint plus the change of one source, or an HP
that the largest hit reaches. -/
def IsCut {Ctx : Type} (X : ExpandContext Ctx) (axis : HpAxis) (deltas : List Int) (maxDmg : Int)
    (iv : HpInterval) (h : Int) : Prop :=
  X.options.skipDerivedSplits = false ∧ (iv.lo ≤ h ∧ h < iv.hi) ∧
    ((iv.lo < h ∧ ∃ b ∈ axis.points, ∃ d ∈ deltas, b + d = h) ∨ 1 ≤ h ∧ h ≤ maxDmg)

theorem mem_splitPoints {Ctx : Type} {X : ExpandContext Ctx} {axis : HpAxis} {x : Int} :
    x ∈ splitPoints X axis deltas maxDmg iv ↔ IsCut X axis deltas maxDmg iv x := by
  cases hskip : X.options.skipDerivedSplits with
  | false => rw [splitPoints_eq X hskip, mem_assembledSplits, IsCut, hskip, eq_self, true_and]
  | true => simp [splitPoints, IsCut, hskip]

theorem mem_splitAxis_splitPoints {Ctx : Type} {X : ExpandContext Ctx} {axis : HpAxis}
    {piece : HpInterval} :
    piece ∈ splitAxis iv.hi (splitPoints X axis deltas maxDmg iv) iv.lo iv.lo_le_hi ↔
      IsPiece (IsCut X axis deltas maxDmg iv) iv piece := by
  have hsorted : (splitPoints X axis deltas maxDmg iv).Pairwise (· < ·) := by
    unfold splitPoints
    split
    · exact .nil
    · exact pairwise_sortedSet _
  rw [mem_splitAxis hsorted fun x hx => (mem_splitPoints.1 hx).2.1]
  simp only [mem_splitPoints]

theorem one_side {piece : HpInterval} {x : Int} (h : ¬(x ∈ piece ∧ x + 1 ∈ piece)) :
    (∀ hp ∈ piece, hp ≤ x) ∨ ∀ hp ∈ piece, x < hp := by
  simp only [HpInterval.mem_def] at h ⊢
  by_cases hx : piece.hi ≤ x
  · exact .inl fun hp hhp => by omega
  · exact .inr fun hp hhp => by omega

/-- The pieces partition the interval and no crossing above its low end falls into a piece; the
crossing at the low end is separated exactly within the kill zone. -/
theorem inputPieces_separate (breakpoints deltas : List Int) (maxDmg : Int) (iv : HpInterval) :
    (inputPieces breakpoints deltas maxDmg iv).Pairwise (fun a b => a.hi < b.lo) ∧
    (∀ x, (∃ piece ∈ inputPieces breakpoints deltas maxDmg iv, x ∈ piece) ↔ x ∈ iv) ∧
    ∀ b ∈ breakpoints, ∀ d ∈ deltas,
      (b + d ≠ iv.lo → ∀ piece ∈ inputPieces breakpoints deltas maxDmg iv,
        ¬(b + d ∈ piece ∧ b + d + 1 ∈ piece) ∧
          ((∀ hp ∈ piece, hp ≤ b + d) ∨ ∀ hp ∈ piece, b + d < hp)) ∧
      (b + d = iv.lo →
        ((∃ piece ∈ inputPieces breakpoints deltas maxDmg iv, b + d ∈ piece ∧ b + d + 1 ∈ piece) ↔
          iv.lo < iv.hi ∧ ¬(1 ≤ iv.lo ∧ iv.lo ≤ maxDmg))) := by
  have htiles : Tiles (inputPieces breakpoints deltas maxDmg iv) iv.lo iv.hi := tiles_splitAxis _
  refine ⟨htiles.pairwise, fun x => htiles.exists_mem, fun b hb d hd => ⟨?_, ?_⟩⟩
  · intro hne piece hpiece
    have hnot : ¬(b + d ∈ piece ∧ b + d + 1 ∈ piece) := fun hboth => by
      obtain ⟨hlo, hhi, hsplit⟩ := exists_mem_both_inputPieces.1 ⟨piece, hpiece, hboth⟩
      exact hsplit (mem_assembledSplits.2
        ⟨⟨hlo, hhi⟩, .inl ⟨lt_of_le_of_ne hlo (Ne.symm hne), b, hb, d, hd, rfl⟩⟩)
    exact ⟨hnot, one_side hnot⟩
  · intro heq
    rw [exists_mem_both_inputPieces, mem_assembledSplits, heq]
    simp only [lt_self_iff_false, false_and, false_or]
    omega

/-- A breakpoint at the low end with the delta zero stays in one piece with its neighbour. -/
theorem low_end_not_separated :
    ¬ ∀ (breakpoints deltas : List Int) (maxDmg : Int) (iv : HpInterval),
      ∀ piece ∈ inputPieces breakpoints deltas maxDmg iv, ∀ b ∈ breakpoints, ∀ d ∈ deltas,
        ¬(b + d ∈ piece ∧ b + d + 1 ∈ piece) := by
  intro h
  exact h [100] [0] 0 ⟨100, 170, by decide⟩ ⟨100, 170, by decide⟩ (by decide) 100 (by decide) 0
    (by decide) (by decide)

end InputPieces

end NuzlockeSolver
