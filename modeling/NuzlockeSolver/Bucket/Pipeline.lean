import NuzlockeSolver.Bucket.InputSplits
import NuzlockeSolver.Bucket.Refinement

/-!
# The composed pipeline

The pessimal search runs first and its LOSS is the only source of LOSS. Otherwise the search over
buckets runs, and only its WIN says more than UNKNOWN.
-/

namespace NuzlockeSolver

open AndOrGraph

inductive PipelineVerdict
  | win
  | loss
  | unknown
deriving DecidableEq, Repr

structure PipelineConfig where
  pessimalCfg : BsolverConfig := {}
  winCfg : BucketWinConfig := {}

structure PipelineResult where
  verdict : PipelineVerdict := .unknown
  pessimalVerdict : BVerdict := .indeterminate
  pessimalReason : BIndeterminateReason := .none
  bRan : Bool := false
  bVerdict : BucketWinVerdict := .fail
  bReason : IndetReason := .none
  concessionHistogram : Vector Nat 32 := Vector.replicate 32 0
  bStats : BucketWinStats := {}

def runPipeline {σ : Type*} (pessimal : BProblem σ) (W : WinProblem) (q : Question)
    (cfg : PipelineConfig) (bpFp : UInt64) (real : RealRoot) (root : Bucket) (s : σ) :
    Except Fault PipelineResult :=
  let pr := (bsolverCertify pessimal q cfg.pessimalCfg s).1
  let out : PipelineResult := { pessimalVerdict := pr.verdict, pessimalReason := pr.reason }
  if pr.verdict = .loss then .ok { out with verdict := .loss }
  else do
    let (br, _) ← bucketWinCertify ⟨W, q, cfg.winCfg, bpFp⟩ real {} root
    .ok { out with
      bRan := true
      bVerdict := br.verdict
      bReason := br.reason
      concessionHistogram := br.concessionHistogram
      bStats := br.stats
      verdict := if br.verdict = .win then .win else .unknown }

/-- A start state with its exact and pessimal problems, and the bucket problem and the root bucket
of either regime of the PP: as they are, or canonicalized at the root and in every expansion. -/
structure PipelineInput (Ctx : Type) where
  exact : BProblem (BattleState Ctx)
  pessimal : BProblem (BattleState Ctx)
  buckets : Bool → WinProblem
  root : Bool → Bucket
  real : RealRoot
  start : BattleState Ctx

def PipelineInput.pipeline {Ctx : Type} (m : PipelineInput Ctx) (q : Question)
    (cfg : PipelineConfig) (bpFp : UInt64) : Except Fault PipelineResult :=
  runPipeline m.pessimal (m.buckets cfg.winCfg.enablePpCanon) q cfg bpFp m.real
    (m.root cfg.winCfg.enablePpCanon) m.start

/-- The pessimal problem collapses the exact one, and the buckets of the PP regime represent it. -/
structure Matchup (Ctx : Type) [DecidableEq Ctx] (q : Question) (ppCanon : Bool)
    extends PipelineInput Ctx where
  context : ExpandContext Ctx
  interner : ContextInterner Ctx
  reached : Set BucketKey
  collapses : Collapses exact pessimal
  progresses : Progresses exact pessimal
  represents : Represents context interner exact (buckets ppCanon) q reached
  root_mem : keyOf (root ppCanon) ∈ reached
  start_mem : Member interner start (keyOf (root ppCanon))

namespace Matchup

variable {Ctx : Type} [DecidableEq Ctx] {q : Question} {ppCanon : Bool}

def region (m : Matchup Ctx q ppCanon) : Set (BattleState Ctx) := (bGraph m.exact q).region

end Matchup

theorem PipelineInput.pipeline_bVerdict {Ctx : Type} (m : PipelineInput Ctx) {q : Question}
    (cfg : PipelineConfig) (bpFp : UInt64) {out : PipelineResult}
    (h : m.pipeline q cfg bpFp = .ok out) (hran : out.bRan = true) :
    (out.bVerdict = .win → keyOf (m.root cfg.winCfg.enablePpCanon) ∈
        (winGraph (m.buckets cfg.winCfg.enablePpCanon) q).region) ∧
      (out.bVerdict = .fail → keyOf (m.root cfg.winCfg.enablePpCanon) ∉
        (winGraph (m.buckets cfg.winCfg.enablePpCanon) q).region) := by
  unfold pipeline runPipeline at h
  extract_lets pr out₀ at h
  split at h
  · cases h
    cases hran
  · obtain ⟨⟨br, cache⟩, hcertify, h⟩ := bind_eq_ok.1 h
    cases h
    exact bucketWinCertify_verdict (E := ⟨m.buckets cfg.winCfg.enablePpCanon, q, cfg.winCfg, bpFp⟩)
      (.empty _ _) hcertify

section Duel

/-- The player's move takes 4 of at most 8 HP from an opponent that does nothing. -/
def duelTurn (s : BattleState Unit) : BattleState Unit :=
  ⟨(), s.playerHp, max 0 (min 8 s.oppHp - 4)⟩

def duelEngine : Engine Unit where
  actives _ := { player := [⟨false, 50, 0, 0⟩], opponent := [⟨false, 8, 0, 0⟩] }
  mon _ _ := { maxHp := 100, moves := [1, 0, 0, 0] }
  field _ := {}
  isBerry _ := false
  isFixedDamageMove _ := false
  aiProbs _ := [({ moveSlot := 0 }, 1)]
  damageTable _ side _ := .ok { noncrit := if side = 0 then [4] else [], crit := [] }
  turn s _ _ := .done (duelTurn s)
  pausedState s _ _ _ := s
  canonicalizePp ctx := ctx
  entrySort := ⟨fun _ l => l, fun _ _ => .refl _⟩

def duelContext : ExpandContext Unit where
  engine := duelEngine
  bp := ⟨normalize [0, 100] 100, normalize [0, 100] 100⟩

def duelInterner : ContextInterner Unit := ⟨[()], List.nodup_singleton _, one_le_uint32Max⟩

theorem children_of_duelStep {s : BattleState Unit} {move : ExecAction}
    {found : List (Leaf (BattleState Unit))} {stats : StepStats}
    (h : step (oracleEnv duelContext s move) = .ok (found, stats)) :
    found.map (·.child) = [duelTurn s] := by
  unfold step at h
  obtain ⟨_, _, h⟩ := bind_eq_ok.1 h
  obtain ⟨_, _, h⟩ := bind_eq_ok.1 h
  obtain rfl := congrArg Prod.fst (Except.ok.inj h)
  rfl

theorem duelReplay {hi child : BattleState Unit} {move aiAction : ExecAction} {path : Path}
    (h : replayPath duelContext hi move aiAction path = .ok child) : child = duelTurn hi := by
  obtain ⟨_, _, h⟩ := bind_eq_ok.1 h
  obtain ⟨⟨result, c⟩, hrun, h⟩ := bind_eq_ok.1 h
  cases hrun
  dsimp only at h
  split at h
  · cases h
  split at h
  · cases h
  obtain ⟨_, _, h⟩ := bind_eq_ok.1 h
  cases h
  rfl

theorem duelLeaf {lo hi : BattleState Unit} {move : ExecAction}
    {leaves : List (SubRectLeaf Unit)} (h : runLeaves duelContext lo hi move = .ok leaves) :
    ∃ l ∈ leaves, l.loChild = duelTurn lo ∧ l.hiChild = duelTurn hi := by
  obtain ⟨⟨found, stats⟩, hstep, h⟩ := bind_eq_ok.1 h
  have hchildren := children_of_duelStep (liftFault_eq_ok.1 hstep)
  obtain ⟨leaf, hleaf, hchild⟩ := List.mem_map.1
    (hchildren ▸ List.mem_singleton_self (duelTurn lo) : duelTurn lo ∈ found.map (·.child))
  obtain ⟨l, hmem, hl⟩ := mem_of_forall₂ (mapM_except_spec h).flip hleaf
  refine ⟨l, hmem, ?_⟩
  change replayLeaf duelContext hi move leaf = .ok l at hl
  unfold replayLeaf at hl
  split at hl
  · rename_i child hreplay
    cases hl
    exact ⟨hchild, duelReplay hreplay⟩
  · cases hl
  · cases hl

theorem mem_of_mem_inputRects {A : Bucket} {move : ExecAction} {rects : List SubRect}
    (h : inputRects duelContext duelInterner A move = .ok rects) {r : SubRect} (hr : r ∈ rects) :
    (A.playerHp.lo ≤ r.player.lo ∧ r.player.hi ≤ A.playerHp.hi) ∧
      A.oppHp.lo ≤ r.opp.lo ∧ r.opp.hi ≤ A.oppHp.hi := by
  obtain ⟨lo, -, h⟩ := bind_eq_ok.1 h
  obtain ⟨⟨plPts, opPts⟩, -, h⟩ := bind_eq_ok.1 h
  cases h
  obtain ⟨player, hplayer, hr⟩ := List.mem_flatMap.1 hr
  obtain ⟨opp, hopp, rfl⟩ := List.mem_map.1 hr
  exact ⟨(tiles_splitAxis _).within hplayer, (tiles_splitAxis _).within hopp⟩

theorem duelCorner {A : Bucket} {p o : Int} {s : BattleState Unit} (hp : 0 ≤ p ∧ p ≤ 0xFFFF)
    (ho : 0 ≤ o ∧ o ≤ 0xFFFF) (h : cornerState duelInterner A p o = .ok s) :
    s = ⟨(), p, o⟩ := by
  obtain ⟨ctx, playerHp, oppHp⟩ := s
  obtain ⟨-, hplayer, hopp⟩ := ContextInterner.unpack_eq_ok.1 (liftFault_eq_ok.1 h)
  simp only [makePackedKey, UInt16.toNat_ofNat'] at hplayer hopp
  congr 1 <;> omega

theorem mem_imageInterval {lo hi x : Int} (h : lo ≤ hi) :
    x ∈ imageInterval lo hi ↔ lo ≤ x ∧ x ≤ hi := by
  rw [imageInterval, dif_pos h]
  rfl

theorem duelTurn_oppHp {s t : BattleState Unit} (h : s.oppHp ≤ t.oppHp) :
    (duelTurn s).oppHp ≤ (duelTurn t).oppHp := by
  simp only [duelTurn]
  omega

theorem duelBridges {A : Bucket} (hplayer : 0 ≤ A.playerHp.lo ∧ A.playerHp.hi ≤ 0xFFFF)
    (hopp : 0 ≤ A.oppHp.lo ∧ A.oppHp.hi ≤ 0xFFFF) (move : ExecAction) :
    Bridges duelContext duelInterner A move := by
  intro rects hrects r hr lo hi leaves hlo hhi hleaves s hctx hp ho found stats hstep leaf hleaf
  obtain ⟨hrp, hro⟩ := mem_of_mem_inputRects hrects hr
  have hlop := r.player.lo_le_hi
  have hloo := r.opp.lo_le_hi
  obtain rfl := duelCorner ⟨by omega, by omega⟩ ⟨by omega, by omega⟩ hlo
  obtain rfl := duelCorner ⟨by omega, by omega⟩ ⟨by omega, by omega⟩ hhi
  obtain ⟨l, hl, hlc, hhc⟩ := duelLeaf hleaves
  have hchild : leaf.child = duelTurn s := List.mem_singleton.1
    (children_of_duelStep hstep ▸ List.mem_map_of_mem hleaf)
  refine ⟨l, hl, ?_⟩
  rw [hchild]
  refine ⟨rfl, ?_, ?_⟩
  · rw [hlc, hhc]
    exact (mem_imageInterval hlop).2 hp
  · rw [hlc, hhc]
    exact (mem_imageInterval (duelTurn_oppHp hloo)).2 ⟨duelTurn_oppHp ho.1, duelTurn_oppHp ho.2⟩

def duelExact : BProblem (BattleState Unit) where
  classify s := if s.oppHp ≤ 0 then .win else .cont
  legal _ := [{ moveSlot := 0 }]
  step s _ := [[duelTurn s]]
  pack s := ⟨0, UInt16.ofNat s.playerHp.toNat, UInt16.ofNat (max 0 (min 8 s.oppHp)).toNat⟩
  classify_congr := by
    intro s t h
    have hopp := congrArg (fun k : PackedKey => k.oppHp.toNat) h
    simp only [UInt16.toNat_ofNat'] at hopp
    have hiff : s.oppHp ≤ 0 ↔ t.oppHp ≤ 0 := by omega
    simp only [hiff]
  legal_congr := fun _ _ ha => ha
  step_congr := by
    intro s t h a c hc
    obtain rfl := List.mem_singleton.1 hc
    refine ⟨duelTurn t, List.mem_singleton_self _, ?_⟩
    have hopp := congrArg (fun k : PackedKey => k.oppHp.toNat) h
    have hplayer := congrArg (fun k : PackedKey => k.plHp) h
    simp only [UInt16.toNat_ofNat'] at hopp
    have hmin : max 0 (min 8 s.oppHp) = max 0 (min 8 t.oppHp) := by omega
    have hnext : (duelTurn s).oppHp = (duelTurn t).oppHp := by
      simp only [duelTurn]
      omega
    simp only [hnext]
    exact congrArg (PackedKey.mk 0 · _) hplayer.symm

def duelBucket (opp : HpInterval) : Bucket :=
  ⟨0, .singleton 50, opp, supportFp duelContext ⟨(), 0, 0⟩⟩

def duelRoot : Bucket := duelBucket ⟨1, 8, by decide⟩

def duelExpand (k : BucketKey) (a : ExecAction) : ExpandResult :=
  if h : k.opLo ≤ k.opHi then
    match expand duelContext duelInterner (duelBucket ⟨k.opLo, k.opHi, h⟩) a with
    | .ok (result, _) => result
    | .error _ => { concessionTag := 1 }
  else { concessionTag := 1 }

def duelBuckets : WinProblem where
  classify k := if k.opHi ≤ 0 then .win else .cont
  corner _ := ⟨[{ moveSlot := 0 }], 0, 0, false, false⟩
  expand := duelExpand

def duelReached : List BucketKey :=
  [⟨0, 50, 50, 1, 8⟩, ⟨0, 50, 50, 1, 4⟩, ⟨0, 50, 50, 0, 0⟩]

theorem duelExpand_next : ∀ k ∈ duelReached,
    ∀ child ∈ (duelExpand k { moveSlot := 0 }).children, keyOf child.bucket ∈ duelReached := by
  decide +kernel

theorem duelInterner_extends {I : ContextInterner Unit} (h : duelInterner.Extends I) :
    I.Extends duelInterner := by
  obtain ⟨rest, hrest⟩ := h
  cases rest with
  | nil => exact ⟨[], (List.append_nil _).trans (hrest.symm.trans (List.append_nil _))⟩
  | cons u rest =>
    have hnodup := I.nodup
    rw [← hrest] at hnodup
    exact absurd (List.mem_cons_self : u ∈ u :: rest) (List.nodup_cons.1 hnodup).1

theorem duelExpand_spec {k : BucketKey} {a : ExecAction} (hk : k ∈ duelReached)
    (htag : (duelExpand k a).concessionTag = 0) :
    ∃ I I' A, keyOf A = k ∧ I'.Extends duelInterner ∧
      expand duelContext I A a = .ok (duelExpand k a, I') ∧ Bridges duelContext I A a := by
  have hbounds : ∀ k ∈ duelReached, k.d = 0 ∧ k.plLo = 50 ∧ k.plHi = 50 ∧ 0 ≤ k.opLo ∧
      k.opLo ≤ k.opHi ∧ k.opHi ≤ 0xFFFF := by decide
  obtain ⟨hd, hlo, hhi, hopp⟩ := hbounds k hk
  obtain ⟨d, plLo, plHi, opLo, opHi⟩ := k
  obtain ⟨rfl, rfl, rfl⟩ := And.intro hd (And.intro hlo hhi)
  unfold duelExpand at htag ⊢
  rw [dif_pos hopp.2.1] at htag ⊢
  split at htag
  · rename_i result I' hexpand
    refine ⟨duelInterner, I', _, rfl, ?_, hexpand, ?_⟩
    · exact duelInterner_extends (expand_spec hexpand htag).1
    · exact duelBridges (A := duelBucket ⟨opLo, opHi, hopp.2.1⟩)
        (by decide : (0 : Int) ≤ 50 ∧ (50 : Int) ≤ 0xFFFF) ⟨hopp.1, hopp.2.2⟩ a
  · cases htag

theorem duelRepresents (q : Question) :
    Represents duelContext duelInterner duelExact duelBuckets q {k | k ∈ duelReached} where
  exact := rfl
  classify := by
    intro s k hk hs
    have hopp : ∀ k ∈ duelReached, k.opLo ≤ 0 ↔ k.opHi ≤ 0 := by decide
    have hiff : s.oppHp ≤ 0 ↔ k.opHi ≤ 0 :=
      ⟨fun h => (hopp k hk).1 (hs.opp.1.trans h), hs.opp.2.trans⟩
    simp only [duelExact, duelBuckets, hiff]
  legal := fun _ _ ha => ha
  step := by
    intro s a ha c hc
    obtain rfl := List.mem_singleton.1 ha
    obtain rfl := List.mem_singleton.1 hc
    have hprobs : checkAiProbs [({ moveSlot := 0 }, 1)] = .ok () := by decide +kernel
    obtain ⟨⟨found, stats⟩, hstep⟩ : ∃ r, NuzlockeSolver.step (oracleEnv duelContext s
        { moveSlot := 0 }) = .ok r :=
      ⟨_, bind_eq_ok.2 ⟨(), rfl, bind_eq_ok.2 ⟨(), hprobs, rfl⟩⟩⟩
    exact ⟨found, stats, hstep, List.mem_map.1
      (children_of_duelStep hstep ▸ List.mem_singleton_self (duelTurn s))⟩
  nonempty := fun _ _ => List.cons_ne_nil _ _
  expand hk _ husable := duelExpand_spec hk husable.2.2
  reach := by
    intro k a hk _ husable c hc
    obtain ⟨child, hchild, rfl⟩ := hc
    obtain rfl := List.mem_singleton.1 husable.1
    exact duelExpand_next k hk child hchild

def duel : Matchup Unit {} false where
  exact := duelExact
  pessimal := duelExact
  buckets _ := duelBuckets
  context := duelContext
  interner := duelInterner
  reached := {k | k ∈ duelReached}
  real := ⟨0, []⟩
  root _ := duelRoot
  start := ⟨(), 50, 7⟩
  collapses := ⟨fun _ => rfl, fun _ => rfl, fun _ => rfl, fun _ _ => List.cons_ne_nil _ _,
    fun _ _ _ hc => hc⟩
  progresses := fun _ _ h => h
  represents := duelRepresents {}
  root_mem := List.mem_cons_self
  start_mem := ⟨rfl, by decide, by decide⟩

theorem duel_run : (duel.pipeline {} {} 0).map (·.verdict) = .ok .win := by decide +kernel

end Duel

end NuzlockeSolver
