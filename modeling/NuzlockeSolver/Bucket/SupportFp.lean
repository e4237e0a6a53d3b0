import NuzlockeSolver.Bucket.Cover
import NuzlockeSolver.Bucket.InputSplits

/-!
# The support fingerprint of a child

A child carries the fingerprint of the AI's support at the low corner of its image. The image is
split at the breakpoints afterwards, so the fingerprint is the members' own only where the support
does not change within the image.
-/

namespace NuzlockeSolver

variable {Ctx : Type}

/-- Every member state has the fingerprint that the bucket carries. -/
def SupportExact (X : ExpandContext Ctx) (I : ContextInterner Ctx) (b : Bucket) : Prop :=
  ∀ p o, b.Covers p o → ∃ s, cornerState I b p o = .ok s ∧ supportFp X s = b.supportFp

def HpInterval.toList (iv : HpInterval) : List Int :=
  (List.range (iv.hi - iv.lo + 1).toNat).map fun k : Nat => iv.lo + k

theorem HpInterval.mem_toList {iv : HpInterval} {x : Int} : x ∈ iv.toList ↔ x ∈ iv := by
  simp only [HpInterval.toList, List.mem_map, List.mem_range, HpInterval.mem_def]
  constructor
  · rintro ⟨k, hk, rfl⟩
    omega
  · intro hx
    exact ⟨(x - iv.lo).toNat, by omega, by omega⟩

instance (X : ExpandContext Ctx) (I : ContextInterner Ctx) (b : Bucket) :
    Decidable (SupportExact X I b) :=
  decidable_of_iff (∀ p ∈ b.playerHp.toList, ∀ o ∈ b.oppHp.toList,
      (cornerState I b p o).map (supportFp X) = .ok b.supportFp) <| by
    simp only [HpInterval.mem_toList, map_eq_ok]
    exact ⟨fun h p o hpo => h p hpo.1 o hpo.2, fun h p hp o ho => h p o ⟨hp, ho⟩⟩

/-- What one source alone can change on an axis, and the largest hit of an attack. -/
structure Sources where
  deltas : List Int
  maxDmg : Int

/-- The sources on the player's HP and on the opponent's, as the low corner shows them. -/
def sources (X : ExpandContext Ctx) (lo : BattleState Ctx) (move : ExecAction) :
    ExpandM (Sources × Sources) := do
  let aiTables ← (aiMoveActions (X.engine.aiProbs lo)).mapM fun act =>
    effectiveDamageTable X lo 1 act
  let (plAttack, plMaxDmg) ← attackPools aiTables
  let playerTable ← effectiveDamageTable X lo 0 move
  let (opAttack, opMaxDmg) ← attackPool playerTable
  let residual (mon opp : MonView) :=
    residualDeltaCandidates X.engine.isBerry (X.engine.field lo) mon opp
  let pl := X.engine.mon lo 0
  let op := X.engine.mon lo 1
  .ok (⟨sortedSet (0 :: (plAttack ++ residual pl op)), plMaxDmg⟩,
    ⟨sortedSet (0 :: (opAttack ++ residual op pl)), max 0 opMaxDmg⟩)

def Sources.Cut (X : ExpandContext Ctx) (axis : HpAxis) (src : Sources) (iv : HpInterval) :
    Int → Prop :=
  IsCut X axis src.deltas src.maxDmg iv

/-- An outcome of the turn over members of the bucket that no cut divides: its end states from the
low and from the high corner. -/
structure OutcomeOver (X : ExpandContext Ctx) (I : ContextInterner Ctx) (A : Bucket)
    (move : ExecAction) (src : Sources × Sources) (r : SubRect) (lo' hi' : BattleState Ctx) :
    Prop where
  player : IsPiece (src.1.Cut X X.bp.player A.playerHp) A.playerHp r.player
  opp : IsPiece (src.2.Cut X X.bp.opp A.oppHp) A.oppHp r.opp
  ends : ∃ lo hi found stats, cornerState I A r.player.lo r.opp.lo = .ok lo ∧
    cornerState I A r.player.hi r.opp.hi = .ok hi ∧
    step (oracleEnv X lo move) = .ok (found, stats) ∧
    ∃ leaf ∈ found, leaf.child = lo' ∧ replayPath X hi move leaf.aiAction leaf.path = .ok hi'

/-- The outcome takes a member to `x`: each by the whole change at the low end, or all to one HP. -/
def Carries (members : HpInterval) (lo' hi' x : Int) : Prop :=
  if lo' = hi' then x = lo' else x + (members.lo - lo') ∈ members

/-- The AI's possible actions change from the player's HP `x` to the next. -/
def FlipsPlayer (X : ExpandContext Ctx) (ctx : Ctx) (x y : Int) : Prop :=
  (0 ≤ x ∧ x < X.bp.player.maxHp) ∧ supportFp X ⟨ctx, x, y⟩ ≠ supportFp X ⟨ctx, x + 1, y⟩

def FlipsOpp (X : ExpandContext Ctx) (ctx : Ctx) (x y : Int) : Prop :=
  (0 ≤ y ∧ y < X.bp.opp.maxHp) ∧ supportFp X ⟨ctx, x, y⟩ ≠ supportFp X ⟨ctx, x, y + 1⟩

/-- Where the AI's possible actions flip, the whole change of an outcome carries no two neighbours
of the bucket to the two sides unless a cut runs between them. -/
def FlipsCut (X : ExpandContext Ctx) (I : ContextInterner Ctx) (A : Bucket) (move : ExecAction) :
    Prop :=
  ∀ s src, cornerState I A A.playerHp.lo A.oppHp.lo = .ok s → sources X s move = .ok src →
    ∀ r lo' hi', OutcomeOver X I A move src r lo' hi' → ∀ x y,
      Carries r.player lo'.playerHp hi'.playerHp x → Carries r.opp lo'.oppHp hi'.oppHp y →
      (FlipsPlayer X (canonical X lo').ctx x y →
        ¬Carries r.player lo'.playerHp hi'.playerHp (x + 1)) ∧
      (FlipsOpp X (canonical X lo').ctx x y → ¬Carries r.opp lo'.oppHp hi'.oppHp (y + 1))

/-- Every HP changes by one source only, and the AI looks only at whether it is above a
breakpoint. -/
structure OneSource (X : ExpandContext Ctx) (I : ContextInterner Ctx) (A : Bucket)
    (move : ExecAction) : Prop where
  splits : X.options.skipDerivedSplits = false
  player_flips : ∀ ctx x y, FlipsPlayer X ctx x y → x ∈ X.bp.player.points
  opp_flips : ∀ ctx x y, FlipsOpp X ctx x y → y ∈ X.bp.opp.points
  change : ∀ s src, cornerState I A A.playerHp.lo A.oppHp.lo = .ok s → sources X s move = .ok src →
    ∀ r lo' hi', OutcomeOver X I A move src r lo' hi' →
      (lo'.playerHp ≠ hi'.playerHp → r.player.lo - lo'.playerHp ∈ src.1.deltas) ∧
      (lo'.oppHp ≠ hi'.oppHp → r.opp.lo - lo'.oppHp ∈ src.2.deltas)
  -- a cut above the low end of the interval is made by the largest hit alone
  low_end : ∀ s src, cornerState I A A.playerHp.lo A.oppHp.lo = .ok s →
    sources X s move = .ok src →
    (∀ b ∈ X.bp.player.points, ∀ d ∈ src.1.deltas, b + d = A.playerHp.lo →
      1 ≤ A.playerHp.lo ∧ A.playerHp.lo ≤ src.1.maxDmg) ∧
    ∀ b ∈ X.bp.opp.points, ∀ d ∈ src.2.deltas, b + d = A.oppHp.lo →
      1 ≤ A.oppHp.lo ∧ A.oppHp.lo ≤ src.2.maxDmg

/-- The fingerprint at the low corner of a bucket, read off its key. -/
def keyFp (X : ExpandContext Ctx) (I : ContextInterner Ctx) (key : BucketKey) : ExpandM UInt64 :=
  (liftFault (I.unpack (makePackedKey key.d key.plLo key.opLo))).map (supportFp X)

theorem imageInterval_fits {lo hi x : Int} (hlo : ContextInterner.FitsHp lo)
    (hhi : ContextInterner.FitsHp hi) (hx : x ∈ imageInterval lo hi) :
    ContextInterner.FitsHp x := by
  obtain ⟨h0, hmax⟩ := hlo
  obtain ⟨h0', hmax'⟩ := hhi
  unfold imageInterval at hx
  split at hx
  · exact ⟨h0.trans hx.1, hx.2.trans hmax'⟩
  · exact ⟨h0'.trans hx.1, hx.2.trans hmax⟩

theorem imageInterval_lo_mem (lo hi : Int) : lo ∈ imageInterval lo hi := by
  unfold imageInterval
  split
  · exact HpInterval.lo_mem _
  · exact HpInterval.hi_mem _

theorem LeafCovers.cornerState {X : ExpandContext Ctx} {I : ContextInterner Ctx}
    {leaf : SubRectLeaf Ctx} (hok : LeafOk X leaf) {b : Bucket} {fp : UInt64} {p o : Int}
    (h : LeafCovers X I leaf b.d fp p o) :
    NuzlockeSolver.cornerState I b p o = .ok ⟨(canonical X leaf.loChild).ctx, p, o⟩ := by
  have hp := imageInterval_fits hok.lo.1 hok.hi.1 h.player
  have ho := imageInterval_fits hok.lo.2 hok.hi.2 h.opp
  rw [NuzlockeSolver.cornerState, ContextInterner.unpack_makePackedKey h.context hp ho]
  rfl

theorem cornerState_lo {X : ExpandContext Ctx} {I : ContextInterner Ctx} {b : Bucket}
    (h : SupportExact X I b) : keyFp X I (keyOf b) = .ok b.supportFp := by
  obtain ⟨s, hs, hfp⟩ := h _ _ ⟨b.playerHp.lo_mem, b.oppHp.lo_mem⟩
  unfold cornerState at hs
  rw [keyFp, keyOf, hs, ← hfp]
  rfl

theorem SupportExact.of_extends {X : ExpandContext Ctx} {I J : ContextInterner Ctx} {b : Bucket}
    (hext : I.Extends J) (h : SupportExact X I b) : SupportExact X J b := by
  intro p o hpo
  obtain ⟨s, hs, hfp⟩ := h p o hpo
  obtain ⟨ctx, hctx⟩ := exemplar_of_cornerState hs
  exact ⟨s, (cornerState_extends hext hctx).trans hs, hfp⟩

theorem inputSplits_eq (X : ExpandContext Ctx) (A : Bucket) (s : BattleState Ctx)
    (move : ExecAction) :
    inputSplits X A s move (aiMoveActions (X.engine.aiProbs s)) =
      (sources X s move).map fun src =>
        (splitPoints X X.bp.player src.1.deltas src.1.maxDmg A.playerHp,
          splitPoints X X.bp.opp src.2.deltas src.2.maxDmg A.oppHp) := by
  unfold inputSplits sources
  cases (aiMoveActions (X.engine.aiProbs s)).mapM fun act => effectiveDamageTable X s 1 act with
  | error e => rfl
  | ok aiTables =>
    simp only [ok_bind]
    cases attackPools aiTables with
    | error e => rfl
    | ok pl =>
      simp only [ok_bind]
      cases effectiveDamageTable X s 0 move with
      | error e => rfl
      | ok table =>
        simp only [ok_bind]
        cases attackPool table with
        | error e => rfl
        | ok op => rfl

theorem replayLeaf_eq_ok {X : ExpandContext Ctx} {hi : BattleState Ctx} {move : ExecAction}
    {leaf : Leaf (BattleState Ctx)} {l : SubRectLeaf Ctx} :
    replayLeaf X hi move leaf = .ok l ↔
      ∃ child, replayPath X hi move leaf.aiAction leaf.path = .ok child ∧
        ⟨leaf.aiAction, leaf.child, child, pathTookCrit leaf.path⟩ = l := by
  unfold replayLeaf
  split
  · rename_i child hchild
    simp [hchild]
  all_goals
    rename_i hfault
    simp [hfault, expandFault]

/-- The rectangles of an expansion with their leaves are the outcomes over the parts of the bucket
that no cut divides. -/
theorem outcomeOver_iff {X : ExpandContext Ctx} {I : ContextInterner Ctx} {A : Bucket}
    {move : ExecAction} {s : BattleState Ctx} {src : Sources × Sources} {rects : List SubRect}
    (hs : cornerState I A A.playerHp.lo A.oppHp.lo = .ok s) (hsrc : sources X s move = .ok src)
    (hrects : inputRects X I A move = .ok rects)
    (hran : ∀ r ∈ rects, ∀ lo hi, cornerState I A r.player.lo r.opp.lo = .ok lo →
      cornerState I A r.player.hi r.opp.hi = .ok hi → ∃ leaves, runLeaves X lo hi move = .ok leaves)
    {r : SubRect} {lo' hi' : BattleState Ctx} :
    OutcomeOver X I A move src r lo' hi' ↔ r ∈ rects ∧ ∃ lo hi leaves,
      cornerState I A r.player.lo r.opp.lo = .ok lo ∧
      cornerState I A r.player.hi r.opp.hi = .ok hi ∧ runLeaves X lo hi move = .ok leaves ∧
      ∃ leaf ∈ leaves, leaf.loChild = lo' ∧ leaf.hiChild = hi' := by
  have hmem : r ∈ rects ↔ IsPiece (src.1.Cut X X.bp.player A.playerHp) A.playerHp r.player ∧
      IsPiece (src.2.Cut X X.bp.opp A.oppHp) A.oppHp r.opp := by
    rw [inputRects, hs, ok_bind, inputSplits_eq, hsrc] at hrects
    cases hrects
    rw [Sources.Cut, Sources.Cut, ← mem_splitAxis_splitPoints, ← mem_splitAxis_splitPoints]
    simp only [subRects, List.mem_flatMap, List.mem_map]
    constructor
    · rintro ⟨player, hplayer, opp, hopp, rfl⟩
      exact ⟨hplayer, hopp⟩
    · rintro ⟨hplayer, hopp⟩
      exact ⟨r.player, hplayer, r.opp, hopp, rfl⟩
  constructor
  · rintro ⟨hplayer, hopp, lo, hi, found, stats, hlo, hhi, hstep, leaf, hleaf, rfl, hreplay⟩
    have hr := hmem.2 ⟨hplayer, hopp⟩
    obtain ⟨leaves, hleaves⟩ := hran r hr lo hi hlo hhi
    have hmap := hleaves
    rw [runLeaves, hstep] at hmap
    exact ⟨hr, lo, hi, leaves, hlo, hhi, hleaves, _,
      (mem_mapM_except hmap).2 ⟨leaf, hleaf, replayLeaf_eq_ok.2 ⟨hi', hreplay, rfl⟩⟩, rfl, rfl⟩
  · rintro ⟨hr, lo, hi, leaves, hlo, hhi, hleaves, leaf, hleaf, rfl, rfl⟩
    obtain ⟨hplayer, hopp⟩ := hmem.1 hr
    obtain ⟨⟨found, stats⟩, hstep, hmap⟩ := bind_eq_ok.1 hleaves
    obtain ⟨l, hl, hleafReplay⟩ := (mem_mapM_except hmap).1 hleaf
    obtain ⟨child, hreplay, rfl⟩ := replayLeaf_eq_ok.1 hleafReplay
    exact ⟨hplayer, hopp, lo, hi, found, stats, hlo, hhi, liftFault_eq_ok.1 hstep, l, hl, rfl,
      hreplay⟩

/-- Where the shift gate lets a leaf pass, the image is what the leaf carries members to. -/
theorem carries_iff {axis : String} {members : HpInterval} {lo' hi' maxHp x : Int}
    (h : shiftGate axis members.lo members.hi lo' hi' maxHp = .ok ()) :
    Carries members lo' hi' x ↔ x ∈ imageInterval lo' hi' := by
  have hmembers := members.lo_le_hi
  unfold shiftGate at h
  unfold Carries imageInterval
  by_cases heq : lo' = hi'
  · rw [if_pos heq, dif_pos heq.le, HpInterval.mem_def]
    dsimp only
    omega
  · have hshift : hi' - lo' = members.hi - members.lo := by
      by_contra hne
      rw [if_neg hne] at h
      split at h
      · omega
      · cases h
    rw [if_neg heq, dif_pos (by omega), HpInterval.mem_def, HpInterval.mem_def]
    dsimp only
    omega

theorem const_of_neighbours {α : Type} {f : Int → α} {iv : HpInterval}
    (h : ∀ x ∈ iv, x + 1 ∈ iv → f x = f (x + 1)) {x y : Int} (hx : x ∈ iv) (hy : y ∈ iv) :
    f x = f y := by
  have hlo : ∀ n : Nat, iv.lo + n ∈ iv → f (iv.lo + n) = f iv.lo := by
    intro n
    induction n with
    | zero => simp
    | succ n ih =>
      intro hn
      have hprev : iv.lo + n ∈ iv := by
        rw [HpInterval.mem_def] at hn ⊢
        omega
      rw [← ih hprev, h _ hprev (by simpa [add_assoc] using hn)]
      push_cast
      ring_nf
  have hfrom : ∀ z ∈ iv, f z = f iv.lo := by
    intro z hz
    have hz' : iv.lo + ((z - iv.lo).toNat : Int) = z := by
      have hge := hz.1
      omega
    simpa only [hz'] using hlo (z - iv.lo).toNat (hz'.symm ▸ hz)
  rw [hfrom x hx, hfrom y hy]

theorem const_of_neighbours₂ {α : Type} {f : Int → Int → α} {P O : HpInterval}
    (hrow : ∀ x ∈ P, ∀ y ∈ O, x + 1 ∈ P → f x y = f (x + 1) y)
    (hcol : ∀ x ∈ P, ∀ y ∈ O, y + 1 ∈ O → f x y = f x (y + 1)) {p p' o o' : Int} (hp : p ∈ P)
    (hp' : p' ∈ P) (ho : o ∈ O) (ho' : o' ∈ O) : f p o = f p' o' :=
  (const_of_neighbours (fun x hx hnext => hrow x hx o ho hnext) hp hp').trans
    (const_of_neighbours (fun y hy hnext => hcol p' hp' y hy hnext) ho ho')

section Expansion

variable [DecidableEq Ctx] {X : ExpandContext Ctx} {I J : ContextInterner Ctx} {A : Bucket}
  {move : ExecAction} {result : ExpandResult}

/-- The children have their members' own fingerprint exactly when the support is constant on the
image of every leaf. -/
theorem supportExact_iff_images (h : expand X I A move = .ok (result, J))
    (htag : result.concessionTag = 0) {rects : List SubRect}
    (hrects : inputRects X I A move = .ok rects) :
    (∀ child ∈ result.children, SupportExact X J child.bucket) ↔
      ∀ leaf, IsLeafOf X I A move rects leaf →
        ∀ p ∈ imageInterval leaf.loChild.playerHp leaf.hiChild.playerHp,
        ∀ o ∈ imageInterval leaf.loChild.oppHp leaf.hiChild.oppHp,
          supportFp X ⟨(canonical X leaf.loChild).ctx, p, o⟩ =
            supportFp X (canonical X leaf.loChild) := by
  obtain ⟨-, rects', hrects', -, hok, hcover⟩ := expand_spec h htag
  obtain rfl := Except.ok.inj (hrects.symm.trans hrects')
  constructor
  · intro hexact leaf hleaf p hp o ho
    obtain ⟨hleafOk, id, hid⟩ := hok leaf hleaf
    have hlt := (List.getElem?_eq_some_iff.1 hid).1
    have hcov : LeafCovers X J leaf (UInt32.ofNat id) (supportFp X (canonical X leaf.loChild))
        p o := by
      refine ⟨?_, rfl, hp, ho⟩
      rw [ContextInterner.toNat_ofNat_of_lt (hlt.le.trans J.bounded), hid]
    obtain ⟨b, hb, hd, hfp, hpo⟩ := (hcover _ _ p o).2 ⟨leaf, hleaf, hcov⟩
    obtain ⟨child, hchild, rfl⟩ := List.mem_map.1 hb
    obtain ⟨s, hs, hsfp⟩ := hexact child hchild p o hpo
    rw [← hd] at hcov
    obtain rfl := Except.ok.inj (hs.symm.trans (hcov.cornerState hleafOk))
    rw [hsfp, hfp]
  · intro hconst child hchild p o hpo
    obtain ⟨leaf, hleaf, hcov⟩ := (hcover child.bucket.d child.bucket.supportFp p o).1
      ⟨child.bucket, List.mem_map_of_mem hchild, rfl, rfl, hpo⟩
    refine ⟨_, hcov.cornerState (hok leaf hleaf).1, ?_⟩
    rw [hconst leaf hleaf p hcov.player o hcov.opp, hcov.fingerprint]

/-- The leaves of an expansion are the outcomes over the members between the cuts, and their images
are what the outcomes carry members to. -/
theorem expand_outcomes (h : expand X I A move = .ok (result, J))
    (htag : result.concessionTag = 0) :
    ∃ s src rects, cornerState I A A.playerHp.lo A.oppHp.lo = .ok s ∧ sources X s move = .ok src ∧
      inputRects X I A move = .ok rects ∧
      (∀ lo' hi', (∃ r, OutcomeOver X I A move src r lo' hi') ↔
        ∃ leaf, IsLeafOf X I A move rects leaf ∧ leaf.loChild = lo' ∧ leaf.hiChild = hi') ∧
      ∀ r lo' hi', OutcomeOver X I A move src r lo' hi' →
        (∀ x, Carries r.player lo'.playerHp hi'.playerHp x ↔
          x ∈ imageInterval lo'.playerHp hi'.playerHp) ∧
        ∀ y, Carries r.opp lo'.oppHp hi'.oppHp y ↔ y ∈ imageInterval lo'.oppHp hi'.oppHp := by
  obtain ⟨-, rects, hrects, hran, -, -⟩ := expand_spec h htag
  obtain ⟨s, hs, hsplits⟩ := bind_eq_ok.1 hrects
  rw [inputSplits_eq] at hsplits
  obtain ⟨pts, hpts, -⟩ := bind_eq_ok.1 hsplits
  obtain ⟨src, hsrc, -⟩ := map_eq_ok.1 hpts
  have hleaves : ∀ r ∈ rects, ∀ lo hi, cornerState I A r.player.lo r.opp.lo = .ok lo →
      cornerState I A r.player.hi r.opp.hi = .ok hi →
      ∃ leaves, runLeaves X lo hi move = .ok leaves ∧ ∀ leaf ∈ leaves, ShiftOk X r leaf := by
    intro r hr lo hi hlo hhi
    obtain ⟨lo₁, hi₁, leaves, hlo₁, hhi₁, -, hleaves, hok⟩ := hran r hr
    obtain rfl := Except.ok.inj (hlo.symm.trans hlo₁)
    obtain rfl := Except.ok.inj (hhi.symm.trans hhi₁)
    exact ⟨leaves, hleaves, hok⟩
  have hiff : ∀ r lo' hi', OutcomeOver X I A move src r lo' hi' ↔ _ := fun r lo' hi' =>
    outcomeOver_iff hs hsrc hrects fun r hr lo hi hlo hhi =>
      (hleaves r hr lo hi hlo hhi).imp fun _ hrun => hrun.1
  refine ⟨s, src, rects, hs, hsrc, hrects, fun lo' hi' => ⟨?_, ?_⟩, fun r lo' hi' hover => ?_⟩
  · rintro ⟨r, hover⟩
    obtain ⟨hr, lo, hi, leaves, hlo, hhi, hrun, leaf, hleaf, hends⟩ := (hiff r lo' hi').1 hover
    exact ⟨leaf, ⟨r, hr, lo, hi, leaves, hlo, hhi, hrun, hleaf⟩, hends⟩
  · rintro ⟨leaf, ⟨r, hr, lo, hi, leaves, hlo, hhi, hrun, hleaf⟩, hends⟩
    exact ⟨r, (hiff r lo' hi').2 ⟨hr, lo, hi, leaves, hlo, hhi, hrun, leaf, hleaf, hends⟩⟩
  · obtain ⟨hr, lo, hi, leaves, hlo, hhi, hrun, leaf, hleaf, rfl, rfl⟩ := (hiff r lo' hi').1 hover
    obtain ⟨leaves₁, hrun₁, hok⟩ := hleaves r hr lo hi hlo hhi
    obtain rfl := Except.ok.inj (hrun.symm.trans hrun₁)
    exact ⟨fun x => carries_iff (hok leaf hleaf).1, fun y => carries_iff (hok leaf hleaf).2⟩

theorem image_inRange (h : expand X I A move = .ok (result, J)) (htag : result.concessionTag = 0)
    {rects : List SubRect} (hrects : inputRects X I A move = .ok rects) {leaf : SubRectLeaf Ctx}
    (hleaf : IsLeafOf X I A move rects leaf) {p o : Int}
    (hp : p ∈ imageInterval leaf.loChild.playerHp leaf.hiChild.playerHp)
    (ho : o ∈ imageInterval leaf.loChild.oppHp leaf.hiChild.oppHp) :
    (0 ≤ p ∧ p ≤ X.bp.player.maxHp) ∧ 0 ≤ o ∧ o ≤ X.bp.opp.maxHp := by
  obtain ⟨-, rects', hrects', -, hok, hcover⟩ := expand_spec h htag
  obtain rfl := Except.ok.inj (hrects.symm.trans hrects')
  obtain ⟨-, id, hid⟩ := hok leaf hleaf
  have hlt := (List.getElem?_eq_some_iff.1 hid).1
  have hctx : J.exemplars[(UInt32.ofNat id).toNat]? = some (canonical X leaf.loChild).ctx := by
    rw [ContextInterner.toNat_ofNat_of_lt (hlt.le.trans J.bounded), hid]
  obtain ⟨b, hb, -, -, hpo⟩ := (hcover _ _ p o).2 ⟨leaf, hleaf, hctx, rfl, hp, ho⟩
  obtain ⟨child, hchild, rfl⟩ := List.mem_map.1 hb
  obtain ⟨hplayer, hopp, -, -⟩ := expand_sound h htag hchild
  exact ⟨⟨hplayer.1.trans hpo.1.1, hpo.1.2.trans hplayer.2⟩, hopp.1.trans hpo.2.1,
    hpo.2.2.trans hopp.2⟩

end Expansion

theorem OneSource.flipsCut {X : ExpandContext Ctx} {I : ContextInterner Ctx} {A : Bucket}
    {move : ExecAction} (h : OneSource X I A move) : FlipsCut X I A move := by
  -- on either axis: the flip is above a breakpoint, and one source takes a cut there
  have hcut : ∀ (axis : HpAxis) (src : Sources) (iv members : HpInterval) (lo' hi' x : Int),
      IsPiece (src.Cut X axis iv) iv members → x ∈ axis.points →
      (lo' ≠ hi' → members.lo - lo' ∈ src.deltas) →
      (∀ b ∈ axis.points, ∀ d ∈ src.deltas, b + d = iv.lo → 1 ≤ iv.lo ∧ iv.lo ≤ src.maxDmg) →
      Carries members lo' hi' x → ¬Carries members lo' hi' (x + 1) := by
    intro axis src iv members lo' hi' x hpiece hx hdelta hlow hcarries hnext
    by_cases heq : lo' = hi'
    · rw [Carries, if_pos heq] at hcarries hnext
      omega
    rw [Carries, if_neg heq, HpInterval.mem_def] at hcarries hnext
    have hwithin := hpiece.within
    refine hpiece.uncut (x + (members.lo - lo')) hcarries.1 (by omega)
      ⟨h.splits, by omega, ?_⟩
    by_cases hend : x + (members.lo - lo') = iv.lo
    · exact .inr (hend ▸ hlow x hx _ (hdelta heq) hend)
    · exact .inl ⟨by omega, x, hx, _, hdelta heq, rfl⟩
  intro s src hs hsrc r lo' hi' hout x y hx hy
  obtain ⟨hplayer, hopp⟩ := h.change s src hs hsrc r lo' hi' hout
  obtain ⟨hlowPlayer, hlowOpp⟩ := h.low_end s src hs hsrc
  exact ⟨fun hflip => hcut _ _ _ _ _ _ x hout.player (h.player_flips _ x y hflip) hplayer
      hlowPlayer hx,
    fun hflip => hcut _ _ _ _ _ _ y hout.opp (h.opp_flips _ x y hflip) hopp hlowOpp hy⟩

/-- Every child of an expansion carries its members' own fingerprint exactly when every flip of the
AI's support that an outcome carries members across is cut; then the fingerprint is a function of
the key. It is so where every HP changes by one source only. -/
theorem expand_supportExact_iff [DecidableEq Ctx] (X : ExpandContext Ctx)
    (I J : ContextInterner Ctx) (A : Bucket) (move : ExecAction) (result : ExpandResult)
    (h : expand X I A move = .ok (result, J)) (htag : result.concessionTag = 0) :
    ((∀ child ∈ result.children, SupportExact X J child.bucket) ↔ FlipsCut X I A move) ∧
      (FlipsCut X I A move → ∀ K, J.Extends K → ∀ child ∈ result.children,
        keyFp X K (keyOf child.bucket) = .ok child.bucket.supportFp) ∧
      (OneSource X I A move → FlipsCut X I A move) := by
  obtain ⟨s, src, rects, hs, hsrc, hrects, hends, hcarries⟩ := expand_outcomes h htag
  have hiff : (∀ child ∈ result.children, SupportExact X J child.bucket) ↔
      FlipsCut X I A move := by
    rw [supportExact_iff_images h htag hrects]
    constructor
    · intro hconst s' src' hs' hsrc' r lo' hi' hover x y hx hy
      obtain rfl := Except.ok.inj (hs.symm.trans hs')
      obtain rfl := Except.ok.inj (hsrc.symm.trans hsrc')
      obtain ⟨hplayer, hopp⟩ := hcarries r lo' hi' hover
      obtain ⟨leaf, hleaf, rfl, rfl⟩ := (hends lo' hi').1 ⟨r, hover⟩
      rw [hplayer] at hx ⊢
      rw [hopp] at hy ⊢
      have hxy := hconst leaf hleaf x hx y hy
      exact ⟨fun hflip hnext => hflip.2 (hxy.trans (hconst leaf hleaf _ hnext y hy).symm),
        fun hflip hnext => hflip.2 (hxy.trans (hconst leaf hleaf x hx _ hnext).symm)⟩
    · intro hflips leaf hleaf
      obtain ⟨r, hover⟩ := (hends _ _).2 ⟨leaf, hleaf, rfl, rfl⟩
      obtain ⟨hplayer, hopp⟩ := hcarries r _ _ hover
      have hsame := hflips s src hs hsrc r _ _ hover
      simp only [hplayer, hopp] at hsame
      intro p hp o ho
      have hconst : supportFp X ⟨(canonical X leaf.loChild).ctx, p, o⟩ = supportFp X
          ⟨(canonical X leaf.loChild).ctx, leaf.loChild.playerHp, leaf.loChild.oppHp⟩ := by
        refine const_of_neighbours₂ (f := fun x y => supportFp X ⟨_, x, y⟩) ?_ ?_ hp
          (imageInterval_lo_mem _ _) ho (imageInterval_lo_mem _ _)
        · intro x hx y hy hnext
          by_contra hne
          have hmin := (image_inRange h htag hrects hleaf hx hy).1.1
          have hmax := (image_inRange h htag hrects hleaf hnext hy).1.2
          exact (hsame x y hx hy).1 ⟨⟨hmin, by omega⟩, hne⟩ hnext
        · intro x hx y hy hnext
          by_contra hne
          have hmin := (image_inRange h htag hrects hleaf hx hy).2.1
          have hmax := (image_inRange h htag hrects hleaf hx hnext).2.2
          exact (hsame x y hx hy).2 ⟨⟨hmin, by omega⟩, hne⟩ hnext
      rw [hconst]
      simp only [← canonical_playerHp (X := X) leaf.loChild,
        ← canonical_oppHp (X := X) leaf.loChild]
  refine ⟨hiff, fun hflips K hK child hchild => ?_, OneSource.flipsCut⟩
  exact cornerState_lo ((hiff.2 hflips child hchild).of_extends hK)

def sandstormEngine : Engine Unit where
  actives s :=
    { player := [⟨s.playerHp ≤ 0, s.playerHp, 0, 0⟩], opponent := [⟨s.oppHp ≤ 0, s.oppHp, 0, 0⟩] }
  mon _ _ := { maxHp := 100, moves := [1, 2, 0, 0] }
  field _ := { weather := 3 }
  isBerry _ := false
  isFixedDamageMove _ := false
  aiProbs s :=
    if s.oppHp ≤ 55 then [({ moveSlot := 0 }, 1 / 2), ({ moveSlot := 1 }, 1 / 2)]
    else [({ moveSlot := 0 }, 1)]
  damageTable _ side _ := .ok { noncrit := if side = 0 then [4] else [], crit := [] }
  turn s _ _ := .done ⟨(), s.playerHp - 6, s.oppHp - 4 - 6⟩
  pausedState s _ _ _ := s
  canonicalizePp ctx := ctx
  entrySort := ⟨fun _ l => l, fun _ _ => .refl _⟩

def sandstormContext : ExpandContext Unit where
  engine := sandstormEngine
  bp := ⟨normalize [0, 100] 100, normalize [0, 55, 56, 100] 100⟩

def sandstormInterner : ContextInterner Unit := ⟨[()], List.nodup_singleton _, one_le_uint32Max⟩

def sandstormBucket (lo hi : Int) (h : lo ≤ hi) : Bucket where
  d := 0
  playerHp := .singleton 50
  oppHp := ⟨lo, hi, h⟩
  supportFp := supportFp sandstormContext ⟨(), 50, lo⟩

theorem sandstorm_supportExact : ∃ result J,
    expand sandstormContext sandstormInterner (sandstormBucket 70 80 (by decide))
      { moveSlot := 0 } = .ok (result, J) ∧
    FlipsCut sandstormContext sandstormInterner (sandstormBucket 70 80 (by decide))
      { moveSlot := 0 } := by
  have hrun : ((expand sandstormContext sandstormInterner (sandstormBucket 70 80 (by decide))
      { moveSlot := 0 }).map fun r => (r.1.concessionTag,
        r.1.children.all fun c => SupportExact sandstormContext r.2 c.bucket)) = .ok (0, true) := by
    decide +kernel
  obtain ⟨⟨result, J⟩, hexp, heq⟩ := map_eq_ok.1 hrun
  obtain ⟨htag, hall⟩ := Prod.mk.inj heq
  exact ⟨result, J, hexp,
    (expand_supportExact_iff _ _ J _ _ result hexp htag).1.1 (by simpa using hall)⟩

/-- The hit and the storm carry the image across the threshold, and no split point knows of the
two together: the children above it have the fingerprint of the low corner below it. -/
theorem sandstorm_not_supportExact : ∃ result J,
    expand sandstormContext sandstormInterner (sandstormBucket 63 70 (by decide))
      { moveSlot := 0 } = .ok (result, J) ∧ result.concessionTag = 0 ∧
    ∃ child ∈ result.children, ¬ SupportExact sandstormContext J child.bucket := by
  have hrun : ((expand sandstormContext sandstormInterner (sandstormBucket 63 70 (by decide))
      { moveSlot := 0 }).map fun r => (r.1.concessionTag,
        r.1.children.all fun c => SupportExact sandstormContext r.2 c.bucket)) =
      .ok (0, false) := by
    decide +kernel
  obtain ⟨⟨result, J⟩, hexp, heq⟩ := map_eq_ok.1 hrun
  obtain ⟨htag, hall⟩ := Prod.mk.inj heq
  exact ⟨result, J, hexp, htag, by simpa using hall⟩

end NuzlockeSolver
