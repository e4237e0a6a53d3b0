import Mathlib.Order.WellFounded
import NuzlockeSolver.Bucket.Expand

/-!
# The children of the collected images

From the image rectangles that the leaves leave behind to the children of an expansion: each
rectangle is split at the breakpoints, equal pieces are dropped, and neighbours are merged until
none merge. Per context, fingerprint and move slot the children cover the HP pairs of the images,
and none of them crosses a breakpoint.
-/

namespace NuzlockeSolver

section Segments

def HpAxis.Pure (axis : HpAxis) (iv : HpInterval) : Prop :=
  (iv.lo = iv.hi ∧ iv.lo ∈ axis.points) ∨ ∀ b ∈ axis.points, b ∉ iv

def HpAxis.InRange (axis : HpAxis) (iv : HpInterval) : Prop := 0 ≤ iv.lo ∧ iv.hi ≤ axis.maxHp

/-- The interval lies in one segment of the axis. -/
def HpAxis.WithinSegment (axis : HpAxis) (iv : HpInterval) : Prop :=
  ∃ seg ∈ axis.segments, ∀ x ∈ iv, x ∈ seg

theorem exists_mem_buildSegments {maxHp : Int} {points : List Int} {cursor : Int}
    (hsorted : points.Pairwise (· < ·)) (hpoints : ∀ b ∈ points, cursor ≤ b) {iv : HpInterval}
    (hlo : cursor ≤ iv.lo) (hhi : iv.hi ≤ maxHp)
    (hpure : (iv.lo = iv.hi ∧ iv.lo ∈ points) ∨ ∀ b ∈ points, b ∉ iv) :
    ∃ seg ∈ buildSegments maxHp points cursor, ∀ x ∈ iv, x ∈ seg := by
  have hiv := iv.lo_le_hi
  induction points generalizing cursor with
  | nil =>
    have hcursor : cursor ≤ maxHp := by omega
    refine ⟨⟨cursor, maxHp, hcursor⟩, by simp [buildSegments, hcursor], fun x hx => ?_⟩
    rw [HpInterval.mem_def] at hx ⊢
    dsimp only
    omega
  | cons b points ih =>
    obtain ⟨hb, hrest⟩ := List.pairwise_cons.mp hsorted
    have hcursor := hpoints b List.mem_cons_self
    rw [buildSegments, if_pos hcursor]
    rcases lt_trichotomy iv.hi b with hbelow | hat | habove
    · have hgap : cursor < b := by omega
      rw [dif_pos hgap]
      refine ⟨⟨cursor, b - 1, by omega⟩, List.mem_append_left _ List.mem_cons_self, fun x hx => ?_⟩
      rw [HpInterval.mem_def] at hx ⊢
      dsimp only
      omega
    · have hmem : b ∈ iv := HpInterval.mem_def.mpr ⟨by omega, by omega⟩
      have hsingle : iv.lo = iv.hi := by
        rcases hpure with ⟨hsingle, -⟩ | hnone
        · exact hsingle
        · exact absurd hmem (hnone b List.mem_cons_self)
      refine ⟨.singleton b, List.mem_append_right _ List.mem_cons_self, fun x hx => ?_⟩
      rw [HpInterval.mem_def] at hx
      rw [HpInterval.mem_singleton]
      omega
    · have hlo' : b + 1 ≤ iv.lo := by
        by_contra hle
        have hmem : b ∈ iv := HpInterval.mem_def.mpr ⟨by omega, by omega⟩
        rcases hpure with ⟨hsingle, -⟩ | hnone
        · omega
        · exact hnone b List.mem_cons_self hmem
      have hpure' : (iv.lo = iv.hi ∧ iv.lo ∈ points) ∨ ∀ b ∈ points, b ∉ iv := by
        rcases hpure with ⟨hsingle, hmem⟩ | hnone
        · rcases List.mem_cons.mp hmem with heq | hmem
          · omega
          · exact .inl ⟨hsingle, hmem⟩
        · exact .inr fun b' hb' => hnone b' (List.mem_cons_of_mem _ hb')
      obtain ⟨seg, hseg, hin⟩ := ih hrest (fun b' hb' => hb b' hb') hlo' hpure'
      exact ⟨seg, List.mem_append_right _ (List.mem_cons_of_mem _ hseg), hin⟩

theorem HpAxis.Pure.inOneSegment {axis : HpAxis} {iv : HpInterval} (h : axis.Pure iv)
    (hrange : axis.InRange iv) : axis.WithinSegment iv := by
  have hiv := iv.lo_le_hi
  have hmax : ¬ axis.maxHp < 0 := by
    have hlo := hrange.1
    have hhi := hrange.2
    omega
  have hsegs : axis.segments = buildSegments axis.maxHp axis.points 0 := if_neg hmax
  rw [HpAxis.WithinSegment, hsegs]
  exact exists_mem_buildSegments axis.sorted (fun b hb => (axis.bounded b hb).1) hrange.1
    hrange.2 h

/-- A piece is a breakpoint or a run without any, within the interval that was split. -/
theorem mem_splitRuns {hi : Int} {touching : List Int} {cursor : Int}
    (hsorted : touching.Pairwise (· < ·)) (hin : ∀ b ∈ touching, cursor ≤ b ∧ b ≤ hi)
    {seg : HpInterval} (hseg : seg ∈ splitRuns hi touching cursor) :
    (cursor ≤ seg.lo ∧ seg.hi ≤ hi) ∧
      ((seg.lo = seg.hi ∧ seg.lo ∈ touching) ∨ ∀ b ∈ touching, b ∉ seg) := by
  induction touching generalizing cursor with
  | nil =>
    rw [splitRuns] at hseg
    split at hseg
    · obtain rfl := List.mem_singleton.mp hseg
      exact ⟨⟨le_rfl, le_rfl⟩, .inr (by simp)⟩
    · cases hseg
  | cons b touching ih =>
    obtain ⟨hb, hrest⟩ := List.pairwise_cons.mp hsorted
    have hbin := hin b List.mem_cons_self
    rw [splitRuns] at hseg
    rcases List.mem_append.mp hseg with hseg | hseg
    · split at hseg
      · obtain rfl := List.mem_singleton.mp hseg
        refine ⟨⟨le_rfl, by dsimp only; omega⟩, .inr fun b' hb' hmem => ?_⟩
        have hle := (HpInterval.mem_def.mp hmem).2
        dsimp only at hle
        rcases List.mem_cons.mp hb' with rfl | hb'
        · omega
        · have hlt := hb b' hb'
          omega
      · cases hseg
    · rcases List.mem_cons.mp hseg with rfl | hseg
      · exact ⟨hbin, .inl ⟨rfl, List.mem_cons_self⟩⟩
      · obtain ⟨⟨hlo, hhi⟩, hpure⟩ := ih hrest
          (fun b' hb' => ⟨hb b' hb', (hin b' (List.mem_cons_of_mem _ hb')).2⟩) hseg
        refine ⟨⟨by omega, hhi⟩, ?_⟩
        rcases hpure with ⟨hsingle, hmem⟩ | hnone
        · exact .inl ⟨hsingle, List.mem_cons_of_mem _ hmem⟩
        · refine .inr fun b' hb' hmem => ?_
          rcases List.mem_cons.mp hb' with rfl | hb'
          · have hge := (HpInterval.mem_def.mp hmem).1
            omega
          · exact hnone b' hb' hmem

theorem mem_splitAtBreakpoints_pure {axis : HpAxis} {iv seg : HpInterval}
    (hseg : seg ∈ splitAtBreakpoints iv axis.points) :
    (iv.lo ≤ seg.lo ∧ seg.hi ≤ iv.hi) ∧ axis.Pure seg := by
  have hiv := iv.lo_le_hi
  let touching := sortedSet (axis.points.filter fun b => iv.lo ≤ b ∧ b ≤ iv.hi)
  have htouching : ∀ b, b ∈ touching ↔ b ∈ axis.points ∧ iv.lo ≤ b ∧ b ≤ iv.hi := fun b => by
    simp [touching]
  rw [splitAtBreakpoints_eq] at hseg
  obtain ⟨hwithin, hpure⟩ := mem_splitRuns (pairwise_sortedSet _)
    (fun b hb => ((htouching b).mp hb).2) hseg
  refine ⟨hwithin, ?_⟩
  rcases hpure with ⟨hsingle, hmem⟩ | hnone
  · exact .inl ⟨hsingle, ((htouching _).mp hmem).1⟩
  · refine .inr fun b hb hmem => hnone b ((htouching b).mpr ⟨hb, ?_⟩) hmem
    have hbounds := HpInterval.mem_def.mp hmem
    omega

/-- Two intervals that the veto lets pass have a union without a breakpoint of its own. -/
theorem pure_union {axis : HpAxis} {a b : HpInterval} (ha : axis.Pure a) (hb : axis.Pure b)
    (hveto : mergeVetoAxis a b axis.points = false) : axis.Pure (a.union b) := by
  have hla := a.lo_le_hi
  have hlb := b.lo_le_hi
  simp only [mergeVetoAxis, Bool.or_eq_false_iff, Bool.and_eq_false_iff, List.any_eq_false,
    decide_eq_true_eq, decide_eq_false_iff_not, Bool.or_eq_false_iff] at hveto
  obtain ⟨hstrict, hsingle⟩ := hveto
  have hunion : (a.union b).lo = min a.lo b.lo ∧ (a.union b).hi = max a.hi b.hi := ⟨rfl, rfl⟩
  rcases hsingle with ⟨hnotA, hnotB⟩ | hsame
  · have hnoneA := ha.resolve_left hnotA
    have hnoneB := hb.resolve_left hnotB
    refine .inr fun x hx hmem => ?_
    have hbounds := HpInterval.mem_def.mp hmem
    have hoff := hstrict x hx
    -- an end of the union is an end of one of the two
    have hends : x ∈ a ∨ x ∈ b := by
      rw [HpInterval.mem_def, HpInterval.mem_def]
      omega
    exact hends.elim (hnoneA x hx) (hnoneB x hx)
  · have heq : a.union b = a := by
      obtain ⟨hlo, hhi⟩ := not_or.mp hsame
      have hlo := not_not.mp hlo
      have hhi := not_not.mp hhi
      cases a
      cases b
      simp_all [HpInterval.union]
    rw [heq]
    exact ha

end Segments

section Merge

/-- Some child covers the HP pair in the context, with the fingerprint and the move slot. -/
def CoversFor (children : List ChildBucket) (d : UInt32) (fp : UInt64) (slot p o : Int) : Prop :=
  ∃ c ∈ children, c.bucket.d = d ∧ c.bucket.supportFp = fp ∧ c.aiAction.moveSlot = slot ∧
    c.bucket.Covers p o

def childrenOf (raw : List RawChild) : List ChildBucket := raw.map (·.child)

variable {d : UInt32} {fp : UInt64} {slot p o : Int} {bp : BpSet} {general : Bool}

theorem coversFor_cons {c : RawChild} {l : List RawChild} :
    CoversFor (childrenOf (c :: l)) d fp slot p o ↔
      (c.child.bucket.d = d ∧ c.child.bucket.supportFp = fp ∧ c.child.aiAction.moveSlot = slot ∧
        c.child.bucket.Covers p o) ∨ CoversFor (childrenOf l) d fp slot p o := by
  simp [CoversFor, childrenOf]

theorem coversFor_append {l m : List RawChild} :
    CoversFor (childrenOf (l ++ m)) d fp slot p o ↔
      CoversFor (childrenOf l) d fp slot p o ∨ CoversFor (childrenOf m) d fp slot p o := by
  simp [CoversFor, childrenOf, or_and_right, exists_or]

theorem coversFor_perm {l m : List RawChild} (h : l.Perm m) :
    CoversFor (childrenOf l) d fp slot p o ↔ CoversFor (childrenOf m) d fp slot p o := by
  simp only [CoversFor, (h.map RawChild.child).mem_iff, childrenOf]

theorem dedupeChildren_subset {raw seen : List RawChild} {c : RawChild}
    (h : c ∈ dedupeChildren raw seen) : c ∈ seen ∨ c ∈ raw := by
  induction raw generalizing seen with
  | nil => exact .inl (List.mem_reverse.mp h)
  | cons a raw ih =>
    rw [dedupeChildren] at h
    split at h
    · exact (ih h).imp_right (List.mem_cons_of_mem _)
    · rcases ih h with hseen | hraw
      · rcases List.mem_cons.mp hseen with rfl | hseen
        · exact .inr List.mem_cons_self
        · exact .inl hseen
      · exact .inr (List.mem_cons_of_mem _ hraw)

theorem dedupeChildren_covers {raw seen : List RawChild} :
    CoversFor (childrenOf (dedupeChildren raw seen)) d fp slot p o ↔
      CoversFor (childrenOf seen) d fp slot p o ∨ CoversFor (childrenOf raw) d fp slot p o := by
  induction raw generalizing seen with
  | nil =>
    rw [dedupeChildren, coversFor_perm seen.reverse_perm]
    simp [CoversFor, childrenOf]
  | cons c raw ih =>
    rw [dedupeChildren]
    split
    · rename_i hseen
      obtain ⟨c', hc', heq⟩ := List.any_eq_true.mp hseen
      obtain ⟨hbucket, hslot, -⟩ := of_decide_eq_true heq
      have hthere (h : c.child.bucket.d = d ∧ c.child.bucket.supportFp = fp ∧
          c.child.aiAction.moveSlot = slot ∧ c.child.bucket.Covers p o) :
          CoversFor (childrenOf seen) d fp slot p o :=
        ⟨c'.child, List.mem_map_of_mem hc', by rw [hbucket, hslot]; exact h⟩
      rw [ih, coversFor_cons]
      tauto
    · rw [ih, coversFor_cons, coversFor_cons]
      tauto

theorem mergePair_cases {a b m : RawChild} (h : mergePair bp general a b = some m) :
    (a.child.aiAction.moveSlot = b.child.aiAction.moveSlot ∧
      m.child.aiAction = a.child.aiAction) ∧
    (mergeVetoAxis a.child.bucket.playerHp b.child.bucket.playerHp bp.player.points = false ∧
      mergeVetoAxis a.child.bucket.oppHp b.child.bucket.oppHp bp.opp.points = false) ∧
    tryMerge a.child.bucket b.child.bucket = some m.child.bucket := by
  unfold mergePair at h
  split at h
  · cases h
  split at h
  · cases h
  rename_i hslot
  split at h
  · cases h
  split at h
  · cases h
  rename_i hplayer
  split at h
  · cases h
  rename_i hopp
  obtain ⟨bucket, hbucket, rfl⟩ := Option.map_eq_some_iff.mp h
  exact ⟨⟨not_not.mp hslot, rfl⟩,
    ⟨Bool.eq_false_iff.mpr hplayer, Bool.eq_false_iff.mpr hopp⟩, hbucket⟩

theorem tryMerge_intervals {a b m : Bucket} (h : tryMerge a b = some m) :
    (m.playerHp = a.playerHp ∨ m.playerHp = a.playerHp.union b.playerHp) ∧
      (m.oppHp = a.oppHp ∨ m.oppHp = a.oppHp.union b.oppHp) := by
  unfold tryMerge at h
  split at h
  · cases h
  split at h
  · cases h
  split at h
  · cases h
    exact ⟨.inl rfl, .inl rfl⟩
  split at h
  · cases h
    exact ⟨.inl rfl, .inr rfl⟩
  split at h
  · cases h
    exact ⟨.inr rfl, .inl rfl⟩
  · cases h

/-- Both intervals are within range and cross no breakpoint. -/
structure Bucket.Sound (bp : BpSet) (b : Bucket) : Prop where
  playerRange : bp.player.InRange b.playerHp
  oppRange : bp.opp.InRange b.oppHp
  playerPure : bp.player.Pure b.playerHp
  oppPure : bp.opp.Pure b.oppHp

theorem HpAxis.InRange.union {axis : HpAxis} {a b : HpInterval} (ha : axis.InRange a)
    (hb : axis.InRange b) : axis.InRange (a.union b) :=
  ⟨le_min ha.1 hb.1, max_le ha.2 hb.2⟩

theorem mergePair_sound {a b m : RawChild} (h : mergePair bp general a b = some m)
    (ha : a.child.bucket.Sound bp) (hb : b.child.bucket.Sound bp) : m.child.bucket.Sound bp := by
  obtain ⟨-, ⟨hplayer, hopp⟩, hmerge⟩ := mergePair_cases h
  obtain ⟨hpl, hop⟩ := tryMerge_intervals hmerge
  refine ⟨?_, ?_, ?_, ?_⟩
  · rcases hpl with heq | heq <;> rw [heq]
    · exact ha.playerRange
    · exact ha.playerRange.union hb.playerRange
  · rcases hop with heq | heq <;> rw [heq]
    · exact ha.oppRange
    · exact ha.oppRange.union hb.oppRange
  · rcases hpl with heq | heq <;> rw [heq]
    · exact ha.playerPure
    · exact pure_union ha.playerPure hb.playerPure hplayer
  · rcases hop with heq | heq <;> rw [heq]
    · exact ha.oppPure
    · exact pure_union ha.oppPure hb.oppPure hopp

theorem mergeOnce_cases {l m : List RawChild} (h : mergeOnce bp general l = some m) :
    ∃ pre a b c post, l = pre ++ a :: b :: post ∧ m = pre ++ c :: post ∧
      mergePair bp general a b = some c := by
  induction l generalizing m with
  | nil => simp [mergeOnce] at h
  | cons a l ih =>
    cases l with
    | nil => simp [mergeOnce] at h
    | cons b rest =>
      rw [mergeOnce] at h
      split at h
      · rename_i c hpair
        cases h
        exact ⟨[], a, b, c, rest, rfl, rfl, hpair⟩
      · obtain ⟨m', hm', rfl⟩ := Option.map_eq_some_iff.mp h
        obtain ⟨pre, x, y, z, post, hl, rfl, hpair⟩ := ih hm'
        exact ⟨a :: pre, x, y, z, post, by rw [hl]; rfl, rfl, hpair⟩

theorem mergeOnce_coversFor {l m : List RawChild} (h : mergeOnce bp general l = some m) :
    CoversFor (childrenOf m) d fp slot p o ↔ CoversFor (childrenOf l) d fp slot p o := by
  obtain ⟨pre, a, b, c, post, rfl, rfl, hpair⟩ := mergeOnce_cases h
  obtain ⟨⟨hslot, haction⟩, -, hmerge⟩ := mergePair_cases hpair
  obtain ⟨hd, hfp, hcd, hcfp, hcover⟩ := tryMerge_spec hmerge
  simp only [coversFor_append, coversFor_cons, hcd, hcfp, hcover, haction, ← hd, ← hfp, ← hslot]
  tauto

theorem mergeOnce_sound {l m : List RawChild} (h : mergeOnce bp general l = some m)
    (hl : ∀ c ∈ l, c.child.bucket.Sound bp) : ∀ c ∈ m, c.child.bucket.Sound bp := by
  obtain ⟨pre, a, b, c, post, rfl, rfl, hpair⟩ := mergeOnce_cases h
  have hmerged := mergePair_sound hpair (hl a (by simp)) (hl b (by simp))
  intro c' hc'
  simp only [List.mem_append, List.mem_cons] at hc'
  rcases hc' with hpre | rfl | hpost
  · exact hl c' (by simp [hpre])
  · exact hmerged
  · exact hl c' (by simp [hpost])

theorem length_mergeOnce {l m : List RawChild} (h : mergeOnce bp general l = some m) :
    m.length + 1 = l.length := by
  obtain ⟨pre, a, b, c, post, rfl, rfl, -⟩ := mergeOnce_cases h
  simp only [List.length_append, List.length_cons]
  omega

theorem mergeAll_induction {P : List RawChild → Prop}
    (hstep : ∀ l m, mergeOnce bp general l = some m → P l → P m) (n : Nat) {l : List RawChild}
    (h : P l) : P (mergeAll bp general n l) := by
  induction n generalizing l with
  | zero => exact h
  | succ n ih =>
    rw [mergeAll]
    split
    · rename_i m hm
      exact ih (hstep l m hm h)
    · exact h

theorem mergeOnce_mergeAll {n : Nat} {l : List RawChild} (hn : l.length ≤ n) :
    mergeOnce bp general (mergeAll bp general n l) = none := by
  induction n generalizing l with
  | zero =>
    obtain rfl := List.length_eq_zero_iff.mp (Nat.le_zero.mp hn)
    rfl
  | succ n ih =>
    rw [mergeAll]
    split
    · rename_i m hm
      have hshort := length_mergeOnce hm
      exact ih (by omega)
    · assumption

theorem wellFounded_mergeOnce (bp : BpSet) (general : Bool) :
    WellFounded fun m l : List RawChild => mergeOnce bp general l = some m := by
  refine Subrelation.wf (fun {m l} h => ?_) (measure (List.length (α := RawChild))).wf
  have hshort := length_mergeOnce h
  change m.length < l.length
  omega

end Merge

section Assembly

variable {Ctx : Type} (X : ExpandContext Ctx)

/-- An image rectangle, as the leaf that leaves it behind adds it. -/
structure ImageRect where
  d : UInt32
  player : HpInterval
  opp : HpInterval
  supportFp : UInt64
  aiAction : ExecAction
  crit : Bool

def ImageRect.InRange (bp : BpSet) (r : ImageRect) : Prop :=
  bp.player.InRange r.player ∧ bp.opp.InRange r.opp

def rawChildren : List ImageRect → ExpandM (List RawChild)
  | [] => .ok []
  | r :: rects => do
    let children ← imageChildren X r.d r.player r.opp r.supportFp r.aiAction r.crit
    let rest ← rawChildren rects
    .ok (children ++ rest)

/-- The children that the collected rectangles lead to. -/
def assembleChildren (general : Bool) (rects : List ImageRect) : ExpandM (List ChildBucket) := do
  let raw ← rawChildren X rects
  .ok (mergePass X general (dedupeChildren raw []))

variable {X} {d : UInt32} {fp : UInt64} {slot p o : Int}

theorem make_spec {d' : UInt32} {player opp : HpInterval} {fp' : UInt64} {bp : BpSet} {b : Bucket}
    (h : Bucket.make d' player opp fp' bp = .ok b) :
    (bp.player.InRange player ∧ bp.opp.InRange opp) ∧ b = ⟨d', player, opp, fp'⟩ := by
  have hrange {name : String} {iv : HpInterval} {axis : HpAxis}
      (h : validateInterval name iv axis = .ok ()) : axis.InRange iv := by
    unfold validateInterval at h
    split at h
    · cases h
    · rename_i hin
      obtain ⟨hlo, hhi⟩ := not_or.mp hin
      exact ⟨not_lt.mp hlo, not_lt.mp hhi⟩
  obtain ⟨_, hplayer, h⟩ := bind_eq_ok.mp h
  obtain ⟨_, hopp, h⟩ := bind_eq_ok.mp h
  exact ⟨⟨hrange hplayer, hrange hopp⟩, (Except.ok.inj h).symm⟩

theorem validateInterval_ok {name : String} {iv : HpInterval} {axis : HpAxis}
    (hrange : axis.InRange iv) (hpure : axis.Pure iv) : validateInterval name iv axis = .ok () := by
  have hinterior : axis.hasInteriorBreakpoint iv.lo iv.hi = false := by
    unfold HpAxis.hasInteriorBreakpoint
    split
    · rfl
    · rename_i hwide
      split
      · rfl
      · rename_i b hb
        have hmem := List.mem_of_find?_eq_some hb
        have hlt : iv.lo < b := by simpa using List.find?_some hb
        rw [decide_eq_false_iff_not]
        intro hbelow
        rcases hpure with ⟨hsingle, -⟩ | hnone
        · omega
        · exact hnone b hmem (HpInterval.mem_def.mpr ⟨by omega, by omega⟩)
  obtain ⟨hlo, hhi⟩ := hrange
  rw [validateInterval, if_neg (by omega), hinterior]
  rfl

theorem imageChild_spec {d' : UInt32} {fp' : UInt64} {aiAction : ExecAction} {crit : Bool}
    {seg : HpInterval × HpInterval} {c : RawChild}
    (h : imageChild X d' fp' aiAction crit seg = .ok c) :
    (X.bp.player.InRange seg.1 ∧ X.bp.opp.InRange seg.2) ∧
      c = ⟨⟨⟨d', seg.1, seg.2, fp'⟩, aiAction⟩, crit⟩ := by
  obtain ⟨b, hb, h⟩ := bind_eq_ok.mp h
  obtain ⟨hrange, rfl⟩ := make_spec (liftFault_eq_ok.mp hb)
  exact ⟨hrange, (Except.ok.inj h).symm⟩

theorem mem_piecePairs {player opp : HpInterval} {seg : HpInterval × HpInterval} {bp : BpSet} :
    (seg ∈ (splitAtBreakpoints player bp.player.points).flatMap fun plSeg =>
        (splitAtBreakpoints opp bp.opp.points).map fun opSeg => (plSeg, opSeg)) ↔
      seg.1 ∈ splitAtBreakpoints player bp.player.points ∧
        seg.2 ∈ splitAtBreakpoints opp bp.opp.points := by
  obtain ⟨plSeg, opSeg⟩ := seg
  simp

theorem imageChildren_spec {r : ImageRect} {children : List RawChild}
    (h : imageChildren X r.d r.player r.opp r.supportFp r.aiAction r.crit = .ok children) :
    (∀ c ∈ children, c.child.bucket.Sound X.bp) ∧ r.InRange X.bp ∧
      ∀ d fp slot p o, CoversFor (childrenOf children) d fp slot p o ↔
        r.d = d ∧ r.supportFp = fp ∧ r.aiAction.moveSlot = slot ∧ p ∈ r.player ∧ o ∈ r.opp := by
  have hmem : ∀ c, c ∈ children ↔ ∃ seg : HpInterval × HpInterval,
      (seg.1 ∈ splitAtBreakpoints r.player X.bp.player.points ∧
        seg.2 ∈ splitAtBreakpoints r.opp X.bp.opp.points) ∧
      imageChild X r.d r.supportFp r.aiAction r.crit seg = .ok c := fun c => by
    simp only [mem_mapM_except h, mem_piecePairs]
  -- every pair of pieces has its child
  have hchild (seg : HpInterval × HpInterval)
      (hseg : seg.1 ∈ splitAtBreakpoints r.player X.bp.player.points ∧
        seg.2 ∈ splitAtBreakpoints r.opp X.bp.opp.points) :
      ∃ c ∈ children, imageChild X r.d r.supportFp r.aiAction r.crit seg = .ok c :=
    mem_of_forall₂ (mapM_except_spec h).flip (mem_piecePairs.mpr hseg)
  refine ⟨fun c hc => ?_, ?_, fun d fp slot p o => ?_⟩
  · obtain ⟨seg, hseg, hc⟩ := (hmem c).mp hc
    obtain ⟨hrange, rfl⟩ := imageChild_spec hc
    exact ⟨hrange.1, hrange.2, (mem_splitAtBreakpoints_pure hseg.1).2,
      (mem_splitAtBreakpoints_pure hseg.2).2⟩
  · obtain ⟨plLo, hplLo, hmemPlLo⟩ := exists_mem_splitAtBreakpoints.mpr r.player.lo_mem
    obtain ⟨plHi, hplHi, hmemPlHi⟩ := exists_mem_splitAtBreakpoints.mpr r.player.hi_mem
    obtain ⟨opLo, hopLo, hmemOpLo⟩ := exists_mem_splitAtBreakpoints.mpr r.opp.lo_mem
    obtain ⟨opHi, hopHi, hmemOpHi⟩ := exists_mem_splitAtBreakpoints.mpr r.opp.hi_mem
    obtain ⟨c, -, hc⟩ := hchild (plLo, opLo) ⟨hplLo, hopLo⟩
    obtain ⟨c', -, hc'⟩ := hchild (plHi, opHi) ⟨hplHi, hopHi⟩
    obtain ⟨⟨hpl, hop⟩, -⟩ := imageChild_spec hc
    obtain ⟨⟨hpl', hop'⟩, -⟩ := imageChild_spec hc'
    exact ⟨⟨hpl.1.trans hmemPlLo.1, hmemPlHi.2.trans hpl'.2⟩,
      hop.1.trans hmemOpLo.1, hmemOpHi.2.trans hop'.2⟩
  · constructor
    · rintro ⟨child, hchild, hd, hfp, hslot, hp, ho⟩
      obtain ⟨c, hc, rfl⟩ := List.mem_map.mp hchild
      obtain ⟨seg, hseg, hc⟩ := (hmem c).mp hc
      obtain ⟨-, rfl⟩ := imageChild_spec hc
      exact ⟨hd, hfp, hslot, exists_mem_splitAtBreakpoints.mp ⟨seg.1, hseg.1, hp⟩,
        exists_mem_splitAtBreakpoints.mp ⟨seg.2, hseg.2, ho⟩⟩
    · rintro ⟨rfl, rfl, rfl, hp, ho⟩
      obtain ⟨plSeg, hpl, hp⟩ := exists_mem_splitAtBreakpoints.mpr hp
      obtain ⟨opSeg, hop, ho⟩ := exists_mem_splitAtBreakpoints.mpr ho
      obtain ⟨c, hc, hmake⟩ := hchild (plSeg, opSeg) ⟨hpl, hop⟩
      obtain ⟨-, rfl⟩ := imageChild_spec hmake
      exact ⟨_, List.mem_map_of_mem hc, rfl, rfl, rfl, hp, ho⟩

theorem imageChildren_ok {r : ImageRect} (h : r.InRange X.bp) :
    ∃ children,
      imageChildren X r.d r.player r.opp r.supportFp r.aiAction r.crit = .ok children := by
  refine mapM_except_ok fun seg hseg => ?_
  obtain ⟨hpl, hop⟩ := mem_piecePairs.mp hseg
  obtain ⟨⟨hplLo, hplHi⟩, hplPure⟩ := mem_splitAtBreakpoints_pure hpl
  obtain ⟨⟨hopLo, hopHi⟩, hopPure⟩ := mem_splitAtBreakpoints_pure hop
  have hplayer := @validateInterval_ok "player" seg.1 X.bp.player
    ⟨h.1.1.trans hplLo, hplHi.trans h.1.2⟩ hplPure
  have hopp := @validateInterval_ok "opp" seg.2 X.bp.opp
    ⟨h.2.1.trans hopLo, hopHi.trans h.2.2⟩ hopPure
  have hmake : Bucket.make r.d seg.1 seg.2 r.supportFp X.bp =
      .ok ⟨r.d, seg.1, seg.2, r.supportFp⟩ := by
    rw [Bucket.make, hplayer, ok_bind, hopp, ok_bind]
  exact ⟨_, bind_eq_ok.mpr ⟨_, liftFault_eq_ok.mpr hmake, rfl⟩⟩

theorem rawChildren_spec {rects : List ImageRect} {raw : List RawChild}
    (h : rawChildren X rects = .ok raw) :
    (∀ c ∈ raw, c.child.bucket.Sound X.bp) ∧ (∀ r ∈ rects, r.InRange X.bp) ∧
      ∀ d fp slot p o, CoversFor (childrenOf raw) d fp slot p o ↔
        ∃ r ∈ rects, r.d = d ∧ r.supportFp = fp ∧ r.aiAction.moveSlot = slot ∧
          p ∈ r.player ∧ o ∈ r.opp := by
  induction rects generalizing raw with
  | nil =>
    cases h
    simp [CoversFor, childrenOf]
  | cons r rects ih =>
    obtain ⟨children, hchildren, h⟩ := bind_eq_ok.mp h
    obtain ⟨rest, hrest, h⟩ := bind_eq_ok.mp h
    cases h
    obtain ⟨hsound, hrange, hcover⟩ := imageChildren_spec hchildren
    obtain ⟨hsounds, hranges, hcovers⟩ := ih hrest
    refine ⟨fun c hc => (List.mem_append.mp hc).elim (hsound c) (hsounds c), fun r' hr' => ?_,
      fun d fp slot p o => ?_⟩
    · rcases List.mem_cons.mp hr' with rfl | hr'
      · exact hrange
      · exact hranges r' hr'
    · simp only [coversFor_append, hcover, hcovers, List.mem_cons, or_and_right, exists_or,
        exists_eq_left]

theorem rawChildren_ok {rects : List ImageRect} (h : ∀ r ∈ rects, r.InRange X.bp) :
    ∃ raw, rawChildren X rects = .ok raw := by
  induction rects with
  | nil => exact ⟨[], rfl⟩
  | cons r rects ih =>
    obtain ⟨children, hchildren⟩ := imageChildren_ok (h r List.mem_cons_self)
    obtain ⟨rest, hrest⟩ := ih fun r' hr' => h r' (List.mem_cons_of_mem _ hr')
    exact ⟨children ++ rest, by rw [rawChildren, hchildren, ok_bind, hrest, ok_bind]⟩

theorem rawChildren_append {rects : List ImageRect} {raw children : List RawChild} {r : ImageRect}
    (h : rawChildren X rects = .ok raw)
    (hr : imageChildren X r.d r.player r.opp r.supportFp r.aiAction r.crit = .ok children) :
    rawChildren X (rects ++ [r]) = .ok (raw ++ children) := by
  induction rects generalizing raw with
  | nil =>
    cases h
    simp only [List.nil_append, rawChildren, hr, ok_bind, List.append_nil]
  | cons r' rects ih =>
    obtain ⟨first, hfirst, h⟩ := bind_eq_ok.mp h
    obtain ⟨rest, hrest, h⟩ := bind_eq_ok.mp h
    cases h
    rw [List.cons_append, rawChildren, hfirst, ok_bind, ih hrest, ok_bind, List.append_assoc]

theorem mergePass_coversFor {general : Bool} {raw : List RawChild} :
    CoversFor (mergePass X general raw) d fp slot p o ↔
      CoversFor (childrenOf raw) d fp slot p o := by
  let sorted := X.engine.entrySort.sort (entryLt general) raw
  have hmerge : CoversFor (childrenOf (mergeAll X.bp general sorted.length sorted)) d fp slot p o ↔
      CoversFor (childrenOf raw) d fp slot p o :=
    mergeAll_induction (P := fun l => CoversFor (childrenOf l) d fp slot p o ↔
        CoversFor (childrenOf raw) d fp slot p o)
      (fun l m hm hl => (mergeOnce_coversFor hm).trans hl) _
      (coversFor_perm (X.engine.entrySort.perm (entryLt general) raw))
  exact hmerge

theorem mergePass_sound {general : Bool} {raw : List RawChild}
    (h : ∀ c ∈ raw, c.child.bucket.Sound X.bp) {c : ChildBucket}
    (hc : c ∈ mergePass X general raw) : c.bucket.Sound X.bp := by
  let sorted := X.engine.entrySort.sort (entryLt general) raw
  have hsorted : ∀ c ∈ sorted, c.child.bucket.Sound X.bp := fun c hc =>
    h c ((X.engine.entrySort.perm (entryLt general) raw).mem_iff.mp hc)
  have hall : ∀ c ∈ mergeAll X.bp general sorted.length sorted, c.child.bucket.Sound X.bp :=
    mergeAll_induction (P := fun l => ∀ c ∈ l, c.child.bucket.Sound X.bp)
      (fun _ _ hm hl => mergeOnce_sound hm hl) sorted.length hsorted
  obtain ⟨raw', hraw', rfl⟩ := List.mem_map.mp hc
  exact hall raw' hraw'

theorem assembleChildren_sound {general : Bool} {rects : List ImageRect}
    {children : List ChildBucket} (h : assembleChildren X general rects = .ok children)
    {c : ChildBucket} (hc : c ∈ children) : c.bucket.Sound X.bp := by
  obtain ⟨raw, hraw, h⟩ := bind_eq_ok.mp h
  cases h
  exact mergePass_sound (fun c hc => (rawChildren_spec hraw).1 c
    ((dedupeChildren_subset hc).resolve_left List.not_mem_nil)) hc

/-- For every list of image rectangles: the children exist exactly when the rectangles are within
range; they cover what the rectangles hold, context by context, fingerprint by fingerprint and slot
by slot; each lies in one segment of either axis; and the merge loop ends. -/
theorem assembleChildren_exact (X : ExpandContext Ctx) (general : Bool) (rects : List ImageRect) :
    ((∃ children, assembleChildren X general rects = .ok children) ↔
      ∀ r ∈ rects, r.InRange X.bp) ∧
    (∀ children, assembleChildren X general rects = .ok children →
      (∀ d fp slot p o, CoversFor children d fp slot p o ↔
        ∃ r ∈ rects, r.d = d ∧ r.supportFp = fp ∧ r.aiAction.moveSlot = slot ∧
          p ∈ r.player ∧ o ∈ r.opp) ∧
      ∀ c ∈ children, X.bp.player.WithinSegment c.bucket.playerHp ∧
        X.bp.opp.WithinSegment c.bucket.oppHp) ∧
    (WellFounded fun m l : List RawChild => mergeOnce X.bp general l = some m) ∧
    ∀ l : List RawChild, mergeOnce X.bp general (mergeAll X.bp general l.length l) = none := by
  refine ⟨⟨?_, ?_⟩, ?_, wellFounded_mergeOnce X.bp general, fun l => mergeOnce_mergeAll le_rfl⟩
  · rintro ⟨children, h⟩
    obtain ⟨raw, hraw, -⟩ := bind_eq_ok.mp h
    exact (rawChildren_spec hraw).2.1
  · intro hrange
    obtain ⟨raw, hraw⟩ := rawChildren_ok hrange
    exact ⟨_, bind_eq_ok.mpr ⟨raw, hraw, rfl⟩⟩
  · intro children h
    refine ⟨fun d fp slot p o => ?_, fun c hc => ?_⟩
    · obtain ⟨raw, hraw, h⟩ := bind_eq_ok.mp h
      cases h
      rw [mergePass_coversFor, dedupeChildren_covers, (rawChildren_spec hraw).2.2]
      exact or_iff_right (by simp [CoversFor, childrenOf])
    · have hc := assembleChildren_sound h hc
      exact ⟨hc.playerPure.inOneSegment hc.playerRange, hc.oppPure.inOneSegment hc.oppRange⟩

end Assembly

end NuzlockeSolver
