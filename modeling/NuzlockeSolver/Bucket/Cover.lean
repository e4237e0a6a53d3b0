import NuzlockeSolver.Bucket.Children

/-!
# What the children of an expansion cover

Splitting, deduplicating and merging change how the images of the leaves are cut into buckets, and
nothing else: the children cover the HP pairs of the images, each in the context and with the
fingerprint of its leaf.
-/

namespace NuzlockeSolver

def CoversAt (l : List Bucket) (d : UInt32) (fp : UInt64) (p o : Int) : Prop :=
  ∃ b ∈ l, b.d = d ∧ b.supportFp = fp ∧ b.Covers p o

variable {d : UInt32} {fp : UInt64} {p o : Int}

theorem coversAt_append {l m : List Bucket} :
    CoversAt (l ++ m) d fp p o ↔ CoversAt l d fp p o ∨ CoversAt m d fp p o := by
  simp [CoversAt, or_and_right, exists_or]

def bucketsOf (raw : List RawChild) : List Bucket := raw.map (·.child.bucket)

theorem coversAt_iff {l : List ChildBucket} :
    CoversAt (l.map (·.bucket)) d fp p o ↔ ∃ slot, CoversFor l d fp slot p o := by
  simp [CoversAt, CoversFor]

theorem coversAt_bucketsOf {raw : List RawChild} :
    CoversAt (bucketsOf raw) d fp p o ↔ ∃ slot, CoversFor (childrenOf raw) d fp slot p o := by
  rw [← coversAt_iff, childrenOf, List.map_map]
  rfl

theorem coversAt_dedupeChildren {raw : List RawChild} :
    CoversAt (bucketsOf (dedupeChildren raw [])) d fp p o ↔ CoversAt (bucketsOf raw) d fp p o := by
  simp only [coversAt_bucketsOf, dedupeChildren_covers]
  simp [CoversFor, childrenOf]

section Expand

variable {Ctx : Type} {X : ExpandContext Ctx}

theorem mergePass_covers {general : Bool} {raw : List RawChild} :
    CoversAt ((mergePass X general raw).map (·.bucket)) d fp p o ↔
      CoversAt (bucketsOf raw) d fp p o := by
  simp only [coversAt_iff, coversAt_bucketsOf, mergePass_coversFor]

theorem imageChildren_covers {d' : UInt32} {player opp : HpInterval} {fp' : UInt64}
    {aiAction : ExecAction} {crit : Bool} {children : List RawChild}
    (h : imageChildren X d' player opp fp' aiAction crit = .ok children) :
    CoversAt (bucketsOf children) d fp p o ↔ (d' = d ∧ fp' = fp) ∧ p ∈ player ∧ o ∈ opp := by
  have hspec := (@imageChildren_spec Ctx X ⟨d', player, opp, fp', aiAction, crit⟩ children h).2.2
  simp only [coversAt_bucketsOf, hspec]
  constructor
  · rintro ⟨slot, hd, hfp, -, hp, ho⟩
    exact ⟨⟨hd, hfp⟩, hp, ho⟩
  · rintro ⟨⟨hd, hfp⟩, hp, ho⟩
    exact ⟨_, hd, hfp, rfl, hp, ho⟩

def inputRects (X : ExpandContext Ctx) (I : ContextInterner Ctx) (A : Bucket)
    (move : ExecAction) : ExpandM (List SubRect) := do
  let lo ← cornerState I A A.playerHp.lo A.oppHp.lo
  let (plPts, opPts) ← inputSplits X A lo move (aiMoveActions (X.engine.aiProbs lo))
  .ok (subRects A plPts opPts)

def IsLeafOf (X : ExpandContext Ctx) (I : ContextInterner Ctx) (A : Bucket) (move : ExecAction)
    (rects : List SubRect) (leaf : SubRectLeaf Ctx) : Prop :=
  ∃ r ∈ rects, ∃ lo hi leaves, cornerState I A r.player.lo r.opp.lo = .ok lo ∧
    cornerState I A r.player.hi r.opp.hi = .ok hi ∧ runLeaves X lo hi move = .ok leaves ∧
    leaf ∈ leaves

/-- The leaf's image covers the HP pair, in the context that has the id, with the fingerprint
taken at the low corner. -/
structure LeafCovers (X : ExpandContext Ctx) (I : ContextInterner Ctx) (leaf : SubRectLeaf Ctx)
    (d : UInt32) (fp : UInt64) (p o : Int) : Prop where
  context : I.exemplars[d.toNat]? = some (canonical X leaf.loChild).ctx
  fingerprint : supportFp X (canonical X leaf.loChild) = fp
  player : p ∈ imageInterval leaf.loChild.playerHp leaf.hiChild.playerHp
  opp : o ∈ imageInterval leaf.loChild.oppHp leaf.hiChild.oppHp

theorem cornerState_extends {I J : ContextInterner Ctx} (h : I.Extends J) {A : Bucket} {p o : Int}
    {ctx : Ctx} (hctx : I.exemplars[A.d.toNat]? = some ctx) :
    cornerState J A p o = cornerState I A p o := by
  unfold cornerState ContextInterner.unpack makePackedKey
  rw [hctx, h.getElem? hctx]

theorem exemplar_of_cornerState {I : ContextInterner Ctx} {A : Bucket} {p o : Int}
    {s : BattleState Ctx} (h : cornerState I A p o = .ok s) :
    ∃ ctx, I.exemplars[A.d.toNat]? = some ctx := by
  have h := liftFault_eq_ok.1 h
  unfold ContextInterner.unpack makePackedKey at h
  split at h
  · cases h
  · exact ⟨_, by assumption⟩

@[simp] theorem canonical_playerHp (s : BattleState Ctx) : (canonical X s).playerHp = s.playerHp := by
  unfold canonical
  split <;> rfl

@[simp] theorem canonical_oppHp (s : BattleState Ctx) : (canonical X s).oppHp = s.oppHp := by
  unfold canonical
  split <;> rfl

theorem LeafCovers.of_extends {I J : ContextInterner Ctx} (h : I.Extends J)
    {leaf : SubRectLeaf Ctx} (hctx : ∃ id : Nat, I.exemplars[id]? = some (canonical X leaf.loChild).ctx) :
    LeafCovers X J leaf d fp p o ↔ LeafCovers X I leaf d fp p o := by
  obtain ⟨id, hid⟩ := hctx
  constructor
  · rintro ⟨hd, hfp, hp, ho⟩
    refine ⟨?_, hfp, hp, ho⟩
    rw [ContextInterner.id_unique hd (h.getElem? hid), hid]
  · rintro ⟨hd, hfp, hp, ho⟩
    exact ⟨h.getElem? hd, hfp, hp, ho⟩

variable [DecidableEq Ctx]

theorem internAndMatch_spec {I J : ContextInterner Ctx} {lo hi : BattleState Ctx} {id : UInt32}
    (h : internAndMatch I lo hi = .ok (id, J)) :
    I.Extends J ∧ J.exemplars[id.toNat]? = some lo.ctx ∧ hi.ctx = lo.ctx ∧
      (ContextInterner.FitsHp lo.playerHp ∧ ContextInterner.FitsHp lo.oppHp) ∧
      ContextInterner.FitsHp hi.playerHp ∧ ContextInterner.FitsHp hi.oppHp := by
  obtain ⟨⟨loKey, I₁⟩, hlo, h⟩ := bind_eq_ok.1 h
  obtain ⟨⟨hiKey, I₂⟩, hhi, h⟩ := bind_eq_ok.1 h
  obtain ⟨hext, hctx, hpl, hop⟩ := ContextInterner.pack_spec (liftFault_eq_ok.1 hlo)
  obtain ⟨hext', hctx', hpl', hop'⟩ := ContextInterner.pack_spec (liftFault_eq_ok.1 hhi)
  dsimp only at h
  split at h
  · cases h
  · rename_i hid
    cases h
    have hlo := hext'.getElem? hctx
    rw [not_not.1 hid] at hlo ⊢
    exact ⟨hext.trans hext', hlo, Option.some.inj (hctx'.symm.trans hlo), ⟨hpl, hop⟩, hpl', hop'⟩

/-- What a leaf that passes the gates satisfies: the end states share their context, and their HP
fit the packed key. -/
structure LeafOk (X : ExpandContext Ctx) (leaf : SubRectLeaf Ctx) : Prop where
  context : (canonical X leaf.hiChild).ctx = (canonical X leaf.loChild).ctx
  lo : ContextInterner.FitsHp leaf.loChild.playerHp ∧ ContextInterner.FitsHp leaf.loChild.oppHp
  hi : ContextInterner.FitsHp leaf.hiChild.playerHp ∧ ContextInterner.FitsHp leaf.hiChild.oppHp

def ShiftOk (X : ExpandContext Ctx) (r : SubRect) (leaf : SubRectLeaf Ctx) : Prop :=
  shiftGate "player" r.player.lo r.player.hi leaf.loChild.playerHp leaf.hiChild.playerHp
      (X.engine.mon leaf.loChild 0).maxHp = .ok () ∧
    shiftGate "opp" r.opp.lo r.opp.hi leaf.loChild.oppHp leaf.hiChild.oppHp
      (X.engine.mon leaf.loChild 1).maxHp = .ok ()

theorem expandLeaf_spec {r : SubRect} {leaf : SubRectLeaf Ctx} {S S' : Collected Ctx}
    (h : expandLeaf X r leaf S = .ok S') :
    S.interner.Extends S'.interner ∧ (LeafOk X leaf ∧ ShiftOk X r leaf) ∧
      (∃ id : Nat, S'.interner.exemplars[id]? = some (canonical X leaf.loChild).ctx) ∧
      ∀ d fp p o, CoversAt (bucketsOf S'.raw) d fp p o ↔
        CoversAt (bucketsOf S.raw) d fp p o ∨ LeafCovers X S'.interner leaf d fp p o := by
  obtain ⟨⟨⟩, hplayer, h⟩ := bind_eq_ok.1 h
  obtain ⟨⟨⟩, hopp, h⟩ := bind_eq_ok.1 h
  obtain ⟨⟨id, I⟩, hintern, h⟩ := bind_eq_ok.1 h
  obtain ⟨children, hchildren, h⟩ := bind_eq_ok.1 h
  cases h
  obtain ⟨hext, hctx, hsame, hlo, hhi⟩ := internAndMatch_spec hintern
  simp only [canonical_playerHp, canonical_oppHp] at hlo hhi
  refine ⟨hext, ⟨⟨hsame, hlo, hhi⟩, hplayer, hopp⟩, ⟨_, hctx⟩, fun d fp p o => ?_⟩
  have hid : I.exemplars[d.toNat]? = some (canonical X leaf.loChild).ctx ↔ id = d := by
    constructor
    · exact fun hd => UInt32.toNat_inj.1 (ContextInterner.id_unique hctx hd)
    · rintro rfl
      exact hctx
  have hcover : CoversAt (bucketsOf children) d fp p o ↔ _ := imageChildren_covers hchildren
  have happend : bucketsOf (S.raw ++ children) = bucketsOf S.raw ++ bucketsOf children :=
    List.map_append
  rw [happend, coversAt_append, hcover]
  refine or_congr_right ⟨?_, ?_⟩
  · rintro ⟨⟨hd, hfp⟩, hp, ho⟩
    exact ⟨hid.2 hd, hfp, hp, ho⟩
  · rintro ⟨hd, hfp, hp, ho⟩
    exact ⟨⟨hid.1 hd, hfp⟩, hp, ho⟩

theorem expandLeaves_spec {r : SubRect} {leaves : List (SubRectLeaf Ctx)} {S S' : Collected Ctx}
    (h : expandLeaves X r leaves S = .ok S') :
    S.interner.Extends S'.interner ∧ (∀ leaf ∈ leaves, (LeafOk X leaf ∧ ShiftOk X r leaf) ∧
        ∃ id : Nat, S'.interner.exemplars[id]? = some (canonical X leaf.loChild).ctx) ∧
      ∀ d fp p o, CoversAt (bucketsOf S'.raw) d fp p o ↔
        CoversAt (bucketsOf S.raw) d fp p o ∨
          ∃ leaf ∈ leaves, LeafCovers X S'.interner leaf d fp p o := by
  induction leaves generalizing S with
  | nil =>
    cases h
    exact ⟨.refl _, by simp, by simp⟩
  | cons leaf leaves ih =>
    obtain ⟨S₁, h₁, h⟩ := bind_eq_ok.1 h
    obtain ⟨hext₁, hok₁, ⟨id, hid⟩, hcover₁⟩ := expandLeaf_spec h₁
    obtain ⟨hext, hok, hcover⟩ := ih h
    refine ⟨hext₁.trans hext, ?_, fun d fp p o => ?_⟩
    · intro leaf' hleaf'
      rcases List.mem_cons.1 hleaf' with rfl | hleaf'
      · exact ⟨hok₁, id, hext.getElem? hid⟩
      · exact hok leaf' hleaf'
    · rw [hcover, hcover₁, ← LeafCovers.of_extends hext ⟨id, hid⟩]
      simp only [List.mem_cons, or_and_right, exists_or, exists_eq_left, or_assoc]

theorem expandSubRects_spec {A : Bucket} {move : ExecAction} {rects : List SubRect}
    {S S' : Collected Ctx} (hA : ∃ ctx, S.interner.exemplars[A.d.toNat]? = some ctx)
    (h : expandSubRects X A move rects S = .ok S') :
    S.interner.Extends S'.interner ∧
      (∀ r ∈ rects, ∃ lo hi leaves, cornerState S.interner A r.player.lo r.opp.lo = .ok lo ∧
        cornerState S.interner A r.player.hi r.opp.hi = .ok hi ∧ supportGate X A lo hi = .ok () ∧
        runLeaves X lo hi move = .ok leaves ∧ ∀ leaf ∈ leaves, ShiftOk X r leaf) ∧
      (∀ leaf, IsLeafOf X S.interner A move rects leaf → LeafOk X leaf ∧
        ∃ id : Nat, S'.interner.exemplars[id]? = some (canonical X leaf.loChild).ctx) ∧
      ∀ d fp p o, CoversAt (bucketsOf S'.raw) d fp p o ↔
        CoversAt (bucketsOf S.raw) d fp p o ∨
          ∃ leaf, IsLeafOf X S.interner A move rects leaf ∧
            LeafCovers X S'.interner leaf d fp p o := by
  induction rects generalizing S with
  | nil =>
    cases h
    exact ⟨.refl _, by simp, by simp [IsLeafOf], by simp [IsLeafOf]⟩
  | cons r rects ih =>
    obtain ⟨S₁, h₁, h⟩ := bind_eq_ok.1 h
    obtain ⟨lo, hlo, h₁⟩ := bind_eq_ok.1 h₁
    obtain ⟨hi, hhi, h₁⟩ := bind_eq_ok.1 h₁
    obtain ⟨⟨⟩, hgate, h₁⟩ := bind_eq_ok.1 h₁
    obtain ⟨leaves, hleaves, h₁⟩ := bind_eq_ok.1 h₁
    obtain ⟨hext₁, hok₁, hcover₁⟩ := expandLeaves_spec h₁
    obtain ⟨ctx, hctx⟩ := hA
    obtain ⟨hext, hrects, hok, hcover⟩ := ih ⟨ctx, hext₁.getElem? hctx⟩ h
    have hcorner : ∀ p o, cornerState S₁.interner A p o = cornerState S.interner A p o :=
      fun p o => cornerState_extends hext₁ hctx
    have hleafOf : ∀ leaf, IsLeafOf X S.interner A move (r :: rects) leaf ↔
        leaf ∈ leaves ∨ IsLeafOf X S₁.interner A move rects leaf := by
      intro leaf
      simp only [IsLeafOf, List.mem_cons, or_and_right, exists_or, exists_eq_left, hcorner]
      refine or_congr_left ⟨?_, fun hmem => ⟨lo, hi, leaves, hlo, hhi, hleaves, hmem⟩⟩
      rintro ⟨lo', hi', leaves', hlo', hhi', hleaves', hmem⟩
      obtain rfl := Except.ok.inj (hlo'.symm.trans hlo)
      obtain rfl := Except.ok.inj (hhi'.symm.trans hhi)
      obtain rfl := Except.ok.inj (hleaves'.symm.trans hleaves)
      exact hmem
    refine ⟨hext₁.trans hext, ?_, ?_, fun d fp p o => ?_⟩
    · intro r' hr'
      rcases List.mem_cons.1 hr' with rfl | hr'
      · exact ⟨lo, hi, leaves, hlo, hhi, hgate, hleaves, fun leaf hleaf => (hok₁ leaf hleaf).1.2⟩
      · simpa only [hcorner] using hrects r' hr'
    · intro leaf hleaf
      rcases (hleafOf leaf).1 hleaf with hleaf | hleaf
      · obtain ⟨⟨hleafOk, -⟩, id, hid⟩ := hok₁ leaf hleaf
        exact ⟨hleafOk, id, hext.getElem? hid⟩
      · exact hok leaf hleaf
    · rw [hcover, hcover₁]
      simp only [hleafOf, or_and_right, exists_or, or_assoc]
      refine or_congr_right (or_congr_left (exists_congr fun leaf => and_congr_right fun hleaf => ?_))
      exact (LeafCovers.of_extends hext (hok₁ leaf hleaf).2).symm

/-- An expansion that returns without a concession: what its children cover are the images of the
leaves. -/
theorem expand_spec {I J : ContextInterner Ctx} {A : Bucket} {move : ExecAction}
    {result : ExpandResult} (h : expand X I A move = .ok (result, J))
    (htag : result.concessionTag = 0) :
    I.Extends J ∧ ∃ rects, inputRects X I A move = .ok rects ∧
      (∀ r ∈ rects, ∃ lo hi leaves, cornerState I A r.player.lo r.opp.lo = .ok lo ∧
        cornerState I A r.player.hi r.opp.hi = .ok hi ∧ supportGate X A lo hi = .ok () ∧
        runLeaves X lo hi move = .ok leaves ∧ ∀ leaf ∈ leaves, ShiftOk X r leaf) ∧
      (∀ leaf, IsLeafOf X I A move rects leaf → LeafOk X leaf ∧
        ∃ id : Nat, J.exemplars[id]? = some (canonical X leaf.loChild).ctx) ∧
      ∀ d fp p o, CoversAt (result.children.map (·.bucket)) d fp p o ↔
        ∃ leaf, IsLeafOf X I A move rects leaf ∧ LeafCovers X J leaf d fp p o := by
  unfold expand at h
  split at h
  · cases h
  obtain ⟨lo, hlo, h⟩ := bind_eq_ok.1 h
  obtain ⟨hi, hhi, h⟩ := bind_eq_ok.1 h
  obtain ⟨-, hgate, h⟩ := bind_eq_ok.1 h
  split at h
  · rename_i htag'
    cases h
    exact absurd htag htag'
  obtain ⟨playerFast, -, h⟩ := bind_eq_ok.1 h
  obtain ⟨aiFast, -, h⟩ := bind_eq_ok.1 h
  obtain ⟨⟨plPts, opPts⟩, hsplits, h⟩ := bind_eq_ok.1 h
  obtain ⟨S, hS, h⟩ := bind_eq_ok.1 h
  cases h
  obtain ⟨hext, hrects, hok, hcover⟩ := expandSubRects_spec (exemplar_of_cornerState hlo) hS
  refine ⟨hext, subRects A plPts opPts, ?_, hrects, hok, fun d fp p o => ?_⟩
  · rw [inputRects, hlo, ok_bind, hsplits]
    rfl
  · rw [mergePass_covers, coversAt_dedupeChildren, hcover]
    exact or_iff_right (by simp [CoversAt, bucketsOf])

def Assembled (X : ExpandContext Ctx) (S : Collected Ctx) : Prop :=
  ∃ rects, rawChildren X rects = .ok S.raw

theorem Assembled.expandLeaf {r : SubRect} {leaf : SubRectLeaf Ctx} {S S' : Collected Ctx}
    (hS : Assembled X S) (h : NuzlockeSolver.expandLeaf X r leaf S = .ok S') : Assembled X S' := by
  obtain ⟨rects, hrects⟩ := hS
  obtain ⟨-, _, h⟩ := bind_eq_ok.1 h
  obtain ⟨-, _, h⟩ := bind_eq_ok.1 h
  obtain ⟨⟨id, I⟩, hintern, h⟩ := bind_eq_ok.1 h
  obtain ⟨children, hchildren, h⟩ := bind_eq_ok.1 h
  cases h
  exact ⟨rects ++ [⟨id, _, _, _, leaf.aiAction, leaf.wasCritLeaf⟩],
    rawChildren_append hrects hchildren⟩

theorem Assembled.expandLeaves {r : SubRect} {leaves : List (SubRectLeaf Ctx)}
    {S S' : Collected Ctx} (hS : Assembled X S)
    (h : NuzlockeSolver.expandLeaves X r leaves S = .ok S') : Assembled X S' := by
  induction leaves generalizing S with
  | nil =>
    cases h
    exact hS
  | cons leaf leaves ih =>
    obtain ⟨S₁, h₁, h⟩ := bind_eq_ok.1 h
    exact ih (hS.expandLeaf h₁) h

theorem Assembled.expandSubRects {A : Bucket} {move : ExecAction} {rects : List SubRect}
    {S S' : Collected Ctx} (hS : Assembled X S)
    (h : NuzlockeSolver.expandSubRects X A move rects S = .ok S') : Assembled X S' := by
  induction rects generalizing S with
  | nil =>
    cases h
    exact hS
  | cons r rects ih =>
    obtain ⟨S₁, h₁, h⟩ := bind_eq_ok.1 h
    obtain ⟨lo, -, h₁⟩ := bind_eq_ok.1 h₁
    obtain ⟨hi, -, h₁⟩ := bind_eq_ok.1 h₁
    obtain ⟨-, -, h₁⟩ := bind_eq_ok.1 h₁
    obtain ⟨leaves, -, h₁⟩ := bind_eq_ok.1 h₁
    have hcollected : Assembled X { S with stats :=
        { S.stats with
          subRects := S.stats.subRects + 1
          replays := S.stats.replays + leaves.length
          leaves := S.stats.leaves + leaves.length } } := hS
    exact ih (hcollected.expandLeaves h₁) h

/-- The children of an expansion without a concession are those of the images it has collected. -/
theorem expand_assembles {I J : ContextInterner Ctx} {A : Bucket} {move : ExecAction}
    {result : ExpandResult} (h : expand X I A move = .ok (result, J))
    (htag : result.concessionTag = 0) :
    ∃ general rects, assembleChildren X general rects = .ok result.children := by
  unfold expand at h
  split at h
  · cases h
  obtain ⟨lo, hlo, h⟩ := bind_eq_ok.1 h
  obtain ⟨hi, hhi, h⟩ := bind_eq_ok.1 h
  obtain ⟨-, -, h⟩ := bind_eq_ok.1 h
  split at h
  · rename_i htag'
    cases h
    exact absurd htag htag'
  obtain ⟨playerFast, -, h⟩ := bind_eq_ok.1 h
  obtain ⟨aiFast, -, h⟩ := bind_eq_ok.1 h
  obtain ⟨⟨plPts, opPts⟩, -, h⟩ := bind_eq_ok.1 h
  obtain ⟨S, hS, h⟩ := bind_eq_ok.1 h
  cases h
  have hstart : Assembled X { interner := I, stats :=
      { derivedSplitPoints := plPts.length + opPts.length } } := ⟨[], rfl⟩
  obtain ⟨rects, hrects⟩ := hstart.expandSubRects hS
  exact ⟨_, rects, bind_eq_ok.2 ⟨S.raw, hrects, rfl⟩⟩

/-- No child of an expansion crosses a breakpoint, and its HP are within the range of the axes. -/
theorem expand_sound {I J : ContextInterner Ctx} {A : Bucket} {move : ExecAction}
    {result : ExpandResult} (h : expand X I A move = .ok (result, J))
    (htag : result.concessionTag = 0) {child : ChildBucket} (hchild : child ∈ result.children) :
    child.bucket.Sound X.bp := by
  obtain ⟨general, rects, h⟩ := expand_assembles h htag
  exact assembleChildren_sound h hchild

end Expand

end NuzlockeSolver
