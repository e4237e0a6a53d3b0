import NuzlockeSolver.Bucket.Breakpoints
import NuzlockeSolver.Bucket.StateCodec

/-!
# Classification of states and buckets

A state is terminal when an active mon is down; the question decides what the end is worth. The
classification of a bucket looks at the four corners of its rectangle. The breakpoints of a
question separate the HP values at which the pointwise test can change its answer, so inside one
segment of each axis the corners speak for every member.
-/

namespace NuzlockeSolver

/-- What the classification reads of a context. -/
structure TerminalView (Ctx : Type) where
  playerFainted : Ctx → Bool
  oppFainted : Ctx → Bool
  playerItem : Ctx → Int

def sideActiveFainted (fainted : Bool) (hp : Int) : Bool := fainted || hp ≤ 0

section Classify

variable {Ctx : Type} (V : TerminalView Ctx)

def classify (s : BattleState Ctx) (q : Question) : Outcome :=
  let playerFainted := sideActiveFainted (V.playerFainted s.ctx) s.playerHp
  let oppFainted := sideActiveFainted (V.oppFainted s.ctx) s.oppHp
  if !(playerFainted || oppFainted) then .cont
  else if q.requireOppFaint && !oppFainted then .loss
  else if q.requireNoFaint && playerFainted then .loss
  else if 0 < q.keepItem ∧ V.playerItem s.ctx ≠ q.keepItem then .loss
  else if 0 < q.keepHp ∧ s.playerHp < q.keepHp then .loss
  else .win

def classifyCorner (d : UInt32) (plHp oppHp : Int) (q : Question) (I : ContextInterner Ctx) :
    Except Fault Outcome :=
  if plHp < 0 ∨ 0xFFFF < plHp ∨ oppHp < 0 ∨ 0xFFFF < oppHp then
    .error (.runtimeError "classify_bucket: HP endpoint out of 16-bit range")
  else do
    let concrete ← I.unpack (makePackedKey d plHp oppHp)
    .ok (classify V concrete q)

def straddle : String :=
  "classify_bucket: mixed WIN/CONTINUE corners with no losing corner — " ++
    "bucket straddles a goal boundary (missing split; INV-3 violation)"

def cornersVerdict (c00 c01 c10 c11 : Outcome) : Except Fault Outcome :=
  let allEq := fun o => c00 = o ∧ c01 = o ∧ c10 = o ∧ c11 = o
  if allEq .win then .ok .win
  else if allEq .cont then .ok .cont
  else if c00 = .loss ∨ c01 = .loss ∨ c10 = .loss ∨ c11 = .loss then .ok .loss
  else .error (.runtimeError straddle)

def classifyBucket (b : Bucket) (q : Question) (I : ContextInterner Ctx) :
    Except Fault Outcome := do
  let pi := b.playerHp
  let oi := b.oppHp
  let c00 ← classifyCorner V b.d pi.lo oi.lo q I
  let c01 ← classifyCorner V b.d pi.lo oi.hi q I
  let c10 ← classifyCorner V b.d pi.hi oi.lo q I
  let c11 ← classifyCorner V b.d pi.hi oi.hi q I
  cornersVerdict c00 c01 c10 c11

end Classify

/-- What the registry reads of a state, one side at a time: the maximal HP, the thresholds of items
and abilities (or that an item is not modelled), the entries of the mechanics and of the AI. -/
structure BreakpointRegistry (σ : Type) where
  getMaxHp : σ → Nat → Int
  hpThresholds : σ → Nat → Option (List Int)
  registryStaticEntries : σ → Nat → Except Fault (List Int)
  aiBreakpointEntries : σ → Nat → Except Fault (List Int)

theorem mem_normalize {raw : List Int} {maxHp x : Int} :
    x ∈ (normalize raw maxHp).points ↔ x ∈ raw ∧ 0 ≤ x ∧ x ≤ maxHp := by
  simp only [normalize, mem_sortedSet, List.mem_filter, decide_eq_true_eq]

namespace BreakpointRegistry

variable {σ : Type} (R : BreakpointRegistry σ)

def seedAxis (state : σ) (side : Nat) (questionHpBoundary : Int) : Except Fault HpAxis :=
  match R.hpThresholds state side with
  | none =>
    .error (.runtimeError ("BreakpointRegistry::instantiate: residual_unknown on side " ++
      toString side ++
        " — hp_thresholds cannot model this item; fail loud (see plan Task 4)"))
  | some thresholds => do
    let maxHp := R.getMaxHp state side
    let registry ← R.registryStaticEntries state side
    let ai ← R.aiBreakpointEntries state side
    let bps := 0 :: (if 0 < maxHp then [maxHp] else []) ++ thresholds ++ registry ++ ai ++
      (if 0 < questionHpBoundary then [questionHpBoundary] else [])
    .ok (normalize bps maxHp)

/-- The HP to keep is the player's. -/
def instantiate (state : σ) (q : Question) : Except Fault BpSet := do
  let player ← R.seedAxis state 0 q.keepHp
  let opp ← R.seedAxis state 1 0
  .ok ⟨player, opp⟩

variable {R}

/-- The faint and the boundary of the question are breakpoints of an axis that reaches them. -/
theorem seedAxis_spec {state : σ} {side : Nat} {boundary : Int} {axis : HpAxis}
    (h : R.seedAxis state side boundary = .ok axis) :
    (0 ≤ axis.maxHp → 0 ∈ axis.points) ∧
      (0 < boundary → boundary ≤ axis.maxHp → boundary ∈ axis.points) := by
  unfold seedAxis at h
  split at h
  · cases h
  · obtain ⟨registry, _, h⟩ := bind_eq_ok.1 h
    obtain ⟨ai, _, h⟩ := bind_eq_ok.1 h
    cases h
    refine ⟨fun hmax => mem_normalize.2 ⟨by simp, le_rfl, hmax⟩, fun hpos hle => ?_⟩
    exact mem_normalize.2 ⟨by simp [hpos], hpos.le, hle⟩

theorem instantiate_eq_ok {state : σ} {q : Question} {bp : BpSet}
    (h : R.instantiate state q = .ok bp) :
    R.seedAxis state 0 q.keepHp = .ok bp.player ∧ R.seedAxis state 1 0 = .ok bp.opp := by
  obtain ⟨player, hplayer, h⟩ := bind_eq_ok.1 h
  obtain ⟨opp, hopp, h⟩ := bind_eq_ok.1 h
  cases h
  exact ⟨hplayer, hopp⟩

end BreakpointRegistry

/-- A segment from the cursor on starts at or after it and ends within the range; a breakpoint
inside is the whole segment. -/
theorem buildSegments_spec {maxHp : Int} {bps : List Int} {cursor : Int} {seg : HpInterval}
    (hsorted : bps.Pairwise (· < ·)) (hbelow : ∀ b ∈ bps, cursor ≤ b)
    (hmax : ∀ b ∈ bps, b ≤ maxHp) (h : seg ∈ buildSegments maxHp bps cursor) :
    cursor ≤ seg.lo ∧ seg.hi ≤ maxHp ∧ ∀ b ∈ bps, b ∈ seg → seg = .singleton b := by
  induction bps generalizing cursor with
  | nil =>
    simp only [buildSegments] at h
    split at h
    · rw [List.mem_singleton] at h
      subst h
      simp
    · cases h
  | cons b bps ih =>
    have hb := hbelow b List.mem_cons_self
    have hlt : ∀ {c}, c ∈ bps → b < c := List.rel_of_pairwise_cons hsorted
    simp only [buildSegments, if_pos hb, List.mem_append, List.mem_cons] at h
    rcases h with h | rfl | h
    · split at h
      · rw [List.mem_singleton] at h
        subst h
        have hbmax := hmax b List.mem_cons_self
        refine ⟨le_rfl, by change b - 1 ≤ maxHp; omega, fun c hc hmem => ?_⟩
        have hcb : b ≤ c := by
          rcases List.mem_cons.1 hc with rfl | hc
          · exact le_rfl
          · exact (hlt hc).le
        have hcle : c ≤ b - 1 := hmem.2
        omega
      · cases h
    · refine ⟨hb, hmax b List.mem_cons_self, fun c _ hmem => ?_⟩
      rw [HpInterval.mem_singleton.1 hmem]
    · have hrest := ih hsorted.of_cons (fun c hc => by have := hlt hc; omega)
        (fun c hc => hmax c (List.mem_cons_of_mem _ hc)) h
      refine ⟨by omega, hrest.2.1, fun c hc hmem => ?_⟩
      rcases List.mem_cons.1 hc with rfl | hc
      · have := hmem.1
        omega
      · exact hrest.2.2 c hc hmem

namespace HpAxis

variable {axis : HpAxis} {seg : HpInterval}

theorem segments_spec (h : seg ∈ axis.segments) :
    0 ≤ seg.lo ∧ seg.hi ≤ axis.maxHp ∧ ∀ b ∈ axis.points, b ∈ seg → seg = .singleton b := by
  unfold segments at h
  split at h
  · cases h
  · exact buildSegments_spec axis.sorted (fun b hb => (axis.bounded b hb).1)
      (fun b hb => (axis.bounded b hb).2) h

/-- Two HP values of one segment lie on the same side of each breakpoint, or are both that
breakpoint. -/
theorem segments_not_straddled (h : seg ∈ axis.segments) {b x y : Int} (hb : b ∈ axis.points)
    (hx : x ∈ seg) (hy : y ∈ seg) : (x ≤ b ↔ y ≤ b) ∧ (x < b ↔ y < b) := by
  by_cases hmem : b ∈ seg
  · have hseg := (segments_spec h).2.2 b hb hmem
    rw [hseg, HpInterval.mem_singleton] at hx hy
    simp [hx, hy]
  · have hx₁ := hx.1
    have hx₂ := hx.2
    have hy₁ := hy.1
    have hy₂ := hy.2
    simp only [HpInterval.mem_def, not_and] at hmem
    omega

/-- The interval lies inside one segment. -/
def InOneSegment (axis : HpAxis) (iv : HpInterval) : Prop :=
  ∃ seg ∈ axis.segments, iv.lo ∈ seg ∧ iv.hi ∈ seg

end HpAxis

section Members

variable {Ctx : Type} {V : TerminalView Ctx} {q : Question} {I : ContextInterner Ctx} {ctx : Ctx}

theorem classify_eq_cont {s : BattleState Ctx} :
    classify V s q = .cont ↔
      sideActiveFainted (V.playerFainted s.ctx) s.playerHp = false ∧
        sideActiveFainted (V.oppFainted s.ctx) s.oppHp = false := by
  rw [← Bool.or_eq_false_iff]
  unfold classify
  simp only
  split_ifs <;> simp_all

theorem classify_eq_win {s : BattleState Ctx} :
    classify V s q = .win ↔
      (sideActiveFainted (V.playerFainted s.ctx) s.playerHp = true ∨
        sideActiveFainted (V.oppFainted s.ctx) s.oppHp = true) ∧
      (q.requireOppFaint = true → sideActiveFainted (V.oppFainted s.ctx) s.oppHp = true) ∧
      (q.requireNoFaint = true →
        sideActiveFainted (V.playerFainted s.ctx) s.playerHp = false) ∧
      (0 < q.keepItem → V.playerItem s.ctx = q.keepItem) ∧
      (0 < q.keepHp → q.keepHp ≤ s.playerHp) := by
  unfold classify
  simp only
  split_ifs <;> grind

theorem sideActiveFainted_mono {fainted : Bool} {h h' : Int} (hle : h' ≤ h)
    (hf : sideActiveFainted fainted h = true) : sideActiveFainted fainted h' = true := by
  simp only [sideActiveFainted, Bool.or_eq_true, decide_eq_true_eq] at hf ⊢
  exact hf.imp_right hle.trans

theorem sideActiveFainted_anti {fainted : Bool} {h h' : Int} (hle : h ≤ h')
    (hf : sideActiveFainted fainted h = false) : sideActiveFainted fainted h' = false := by
  simp only [sideActiveFainted, Bool.or_eq_false_iff, decide_eq_false_iff_not] at hf ⊢
  exact ⟨hf.1, fun h0 => hf.2 (hle.trans h0)⟩

/-- A win at both player ends, with the opponent at its upper end, is a win of every member: the
terminal test and the faint to bring about hold downwards, the rest holds upwards. -/
theorem classify_win_of_corners {pi oi : HpInterval} {p o : Int} (hp : p ∈ pi) (ho : o ∈ oi)
    (hlo : classify V ⟨ctx, pi.lo, oi.hi⟩ q = .win)
    (hhi : classify V ⟨ctx, pi.hi, oi.hi⟩ q = .win) : classify V ⟨ctx, p, o⟩ q = .win := by
  rw [classify_eq_win] at hlo hhi ⊢
  refine ⟨?_, ?_, ?_, hlo.2.2.2.1, ?_⟩
  · exact hhi.1.imp (sideActiveFainted_mono hp.2) (sideActiveFainted_mono ho.2)
  · intro hq
    exact sideActiveFainted_mono ho.2 (hlo.2.1 hq)
  · intro hq
    exact sideActiveFainted_anti hp.1 (hlo.2.2.1 hq)
  · intro hq
    exact (hlo.2.2.2.2 hq).trans hp.1

theorem classify_cont_of_corner {pi oi : HpInterval} {p o : Int} (hp : p ∈ pi) (ho : o ∈ oi)
    (hlo : classify V ⟨ctx, pi.lo, oi.lo⟩ q = .cont) : classify V ⟨ctx, p, o⟩ q = .cont := by
  rw [classify_eq_cont] at hlo ⊢
  exact ⟨sideActiveFainted_anti hp.1 hlo.1, sideActiveFainted_anti ho.1 hlo.2⟩

theorem classify_congr {p p' o o' : Int} (hp : p ≤ 0 ↔ p' ≤ 0) (ho : o ≤ 0 ↔ o' ≤ 0)
    (hk : 0 < q.keepHp → (p < q.keepHp ↔ p' < q.keepHp)) :
    classify V ⟨ctx, p, o⟩ q = classify V ⟨ctx, p', o'⟩ q := by
  have hplayer : sideActiveFainted (V.playerFainted ctx) p =
      sideActiveFainted (V.playerFainted ctx) p' := by
    simp only [sideActiveFainted, hp]
  have hopp : sideActiveFainted (V.oppFainted ctx) o =
      sideActiveFainted (V.oppFainted ctx) o' := by
    simp only [sideActiveFainted, ho]
  have hkeep : (0 < q.keepHp ∧ p < q.keepHp) ↔ 0 < q.keepHp ∧ p' < q.keepHp :=
    and_congr_right hk
  simp only [classify, hplayer, hopp, hkeep]

theorem classifyCorner_eq_ok {d : UInt32} {p o : Int} {c : Outcome}
    (h : classifyCorner V d p o q I = .ok c) :
    ∃ ctx, I.exemplars[d.toNat]? = some ctx ∧ classify V ⟨ctx, p, o⟩ q = c := by
  unfold classifyCorner at h
  split at h
  · cases h
  rename_i hrange
  obtain ⟨s, hs, h⟩ := bind_eq_ok.1 h
  cases hctx : I.exemplars[d.toNat]? with
  | none => simp [ContextInterner.unpack, makePackedKey, hctx] at hs
  | some ctx =>
    have hp : ContextInterner.FitsHp p := by
      unfold ContextInterner.FitsHp
      omega
    have ho : ContextInterner.FitsHp o := by
      unfold ContextInterner.FitsHp
      omega
    rw [ContextInterner.unpack_makePackedKey hctx hp ho] at hs
    cases hs
    exact ⟨ctx, rfl, Except.ok.inj h⟩

theorem classifyCorner_of_interned {d : UInt32} {p o : Int}
    (hctx : I.exemplars[d.toNat]? = some ctx) (hp : ContextInterner.FitsHp p)
    (ho : ContextInterner.FitsHp o) :
    classifyCorner V d p o q I = .ok (classify V ⟨ctx, p, o⟩ q) := by
  have hrange : ¬ (p < 0 ∨ 0xFFFF < p ∨ o < 0 ∨ 0xFFFF < o) := by
    unfold ContextInterner.FitsHp at hp ho
    omega
  rw [classifyCorner, if_neg hrange, ContextInterner.unpack_makePackedKey hctx hp ho, ok_bind]

theorem cornersVerdict_const (c : Outcome) : cornersVerdict c c c c = .ok c := by
  cases c <;> rfl

theorem classifyBucket_eq_ok {b : Bucket} {r : Outcome} (h : classifyBucket V b q I = .ok r) :
    ∃ ctx, I.exemplars[b.d.toNat]? = some ctx ∧
      cornersVerdict (classify V ⟨ctx, b.playerHp.lo, b.oppHp.lo⟩ q)
        (classify V ⟨ctx, b.playerHp.lo, b.oppHp.hi⟩ q)
        (classify V ⟨ctx, b.playerHp.hi, b.oppHp.lo⟩ q)
        (classify V ⟨ctx, b.playerHp.hi, b.oppHp.hi⟩ q) = .ok r := by
  obtain ⟨c00, h00, h⟩ := bind_eq_ok.1 h
  obtain ⟨c01, h01, h⟩ := bind_eq_ok.1 h
  obtain ⟨c10, h10, h⟩ := bind_eq_ok.1 h
  obtain ⟨c11, h11, h⟩ := bind_eq_ok.1 h
  obtain ⟨ctx, hctx, rfl⟩ := classifyCorner_eq_ok h00
  have hsame : ∀ {p o : Int} {c : Outcome}, classifyCorner V b.d p o q I = .ok c →
      classify V ⟨ctx, p, o⟩ q = c := by
    intro p o c hc
    obtain ⟨ctx', hctx', hcl⟩ := classifyCorner_eq_ok hc
    obtain rfl := Option.some.inj (hctx.symm.trans hctx')
    exact hcl
  refine ⟨ctx, hctx, ?_⟩
  rw [hsame h01, hsame h10, hsame h11]
  exact h

theorem cornersVerdict_eq_win {c00 c01 c10 c11 : Outcome}
    (h : cornersVerdict c00 c01 c10 c11 = .ok .win) : c01 = .win ∧ c11 = .win := by
  cases c00 <;> cases c01 <;> cases c10 <;> cases c11 <;> simp_all [cornersVerdict]

theorem cornersVerdict_eq_cont {c00 c01 c10 c11 : Outcome}
    (h : cornersVerdict c00 c01 c10 c11 = .ok .cont) : c00 = .cont := by
  cases c00 <;> cases c01 <;> cases c10 <;> cases c11 <;> simp_all [cornersVerdict]

theorem classifyCorner_ne_straddle (d : UInt32) (p o : Int) :
    classifyCorner V d p o q I ≠ .error (.runtimeError straddle) := by
  intro h
  unfold classifyCorner at h
  split at h
  · have := Fault.runtimeError.inj (Except.error.inj h)
    revert this
    decide
  · unfold ContextInterner.unpack at h
    split at h
    · have := Fault.runtimeError.inj (Except.error.inj h)
      revert this
      decide
    · cases h

theorem bind_ne_error {ε α β : Type} {x : Except ε α} {f : α → Except ε β} {e : ε}
    (hx : x ≠ .error e) (hf : ∀ a, x = .ok a → f a ≠ .error e) : x >>= f ≠ .error e := by
  cases x with
  | error e' =>
    intro h
    cases h
    exact hx rfl
  | ok a => exact hf a rfl

theorem classify_eq_of_segments {σ : Type} {R : BreakpointRegistry σ} {state : σ} {bp : BpSet}
    (hbp : R.instantiate state q = .ok bp) {pseg oseg : HpInterval}
    (hpseg : pseg ∈ bp.player.segments) (hoseg : oseg ∈ bp.opp.segments) {p p' o o' : Int}
    (hp : p ∈ pseg) (hp' : p' ∈ pseg) (ho : o ∈ oseg) (ho' : o' ∈ oseg) :
    classify V ⟨ctx, p, o⟩ q = classify V ⟨ctx, p', o'⟩ q := by
  have hseed := BreakpointRegistry.instantiate_eq_ok hbp
  have hplayer := BreakpointRegistry.seedAxis_spec hseed.1
  have hopp := BreakpointRegistry.seedAxis_spec hseed.2
  have hpmax := (HpAxis.segments_spec hpseg).2.1
  have hplo := (HpAxis.segments_spec hpseg).1
  have homax := (HpAxis.segments_spec hoseg).2.1
  have holo := (HpAxis.segments_spec hoseg).1
  have hp0 := hplayer.1 (hplo.trans (hp.1.trans (hp.2.trans hpmax)))
  have ho0 := hopp.1 (holo.trans (ho.1.trans (ho.2.trans homax)))
  apply classify_congr
  · exact (HpAxis.segments_not_straddled hpseg hp0 hp hp').1
  · exact (HpAxis.segments_not_straddled hoseg ho0 ho ho').1
  · intro hk
    by_cases hle : q.keepHp ≤ bp.player.maxHp
    · exact (HpAxis.segments_not_straddled hpseg (hplayer.2 hk hle) hp hp').2
    · have h₁ := hp.2
      have h₂ := hp'.2
      omega

/-- The state is a member of the bucket. -/
def Bucket.HasMember (b : Bucket) (I : ContextInterner Ctx) (s : BattleState Ctx) : Prop :=
  I.exemplars[b.d.toNat]? = some s.ctx ∧ b.Covers s.playerHp s.oppHp

end Members

/-- The classification of a bucket holds of every member, and inside one segment of each axis it
is the classification of every member. -/
theorem classifyBucket_exact {Ctx σ : Type} (V : TerminalView Ctx) (R : BreakpointRegistry σ)
    (b : Bucket) (q : Question) (I : ContextInterner Ctx) :
    (classifyBucket V b q I = .ok .win → ∀ s, b.HasMember I s → classify V s q = .win) ∧
    (classifyBucket V b q I = .ok .cont → ∀ s, b.HasMember I s → classify V s q = .cont) ∧
    ∀ state bp, R.instantiate state q = .ok bp →
      bp.player.InOneSegment b.playerHp → bp.opp.InOneSegment b.oppHp →
        classifyBucket V b q I ≠ .error (.runtimeError straddle) ∧
        (∀ r, classifyBucket V b q I = .ok r → ∀ s, b.HasMember I s → classify V s q = r) ∧
        ((∃ s, b.HasMember I s) →
          ContextInterner.FitsHp b.playerHp.lo → ContextInterner.FitsHp b.playerHp.hi →
          ContextInterner.FitsHp b.oppHp.lo → ContextInterner.FitsHp b.oppHp.hi →
            ∃ r, classifyBucket V b q I = .ok r) := by
  refine ⟨?_, ?_, ?_⟩
  · rintro h ⟨ctx, p, o⟩ ⟨hctx, hp, ho⟩
    obtain ⟨ctx', hctx', hv⟩ := classifyBucket_eq_ok h
    obtain rfl := Option.some.inj (hctx.symm.trans hctx')
    have hwin := cornersVerdict_eq_win hv
    exact classify_win_of_corners hp ho hwin.1 hwin.2
  · rintro h ⟨ctx, p, o⟩ ⟨hctx, hp, ho⟩
    obtain ⟨ctx', hctx', hv⟩ := classifyBucket_eq_ok h
    obtain rfl := Option.some.inj (hctx.symm.trans hctx')
    exact classify_cont_of_corner hp ho (cornersVerdict_eq_cont hv)
  · rintro state bp hbp ⟨pseg, hpseg, hplo, hphi⟩ ⟨oseg, hoseg, holo, hohi⟩
    -- all members agree with the lower corner
    have hcongr : ∀ (ctx : Ctx) {p o : Int}, p ∈ pseg → o ∈ oseg →
        classify V ⟨ctx, p, o⟩ q = classify V ⟨ctx, b.playerHp.lo, b.oppHp.lo⟩ q :=
      fun ctx _ _ hp ho => classify_eq_of_segments hbp hpseg hoseg hp hplo ho holo
    refine ⟨?_, ?_, ?_⟩
    · refine bind_ne_error (classifyCorner_ne_straddle _ _ _) fun c00 h00 => ?_
      refine bind_ne_error (classifyCorner_ne_straddle _ _ _) fun c01 h01 => ?_
      refine bind_ne_error (classifyCorner_ne_straddle _ _ _) fun c10 h10 => ?_
      refine bind_ne_error (classifyCorner_ne_straddle _ _ _) fun c11 h11 => ?_
      obtain ⟨ctx, hctx, rfl⟩ := classifyCorner_eq_ok h00
      have hsame : ∀ {p o : Int} {c : Outcome}, p ∈ pseg → o ∈ oseg →
          classifyCorner V b.d p o q I = .ok c →
            c = classify V ⟨ctx, b.playerHp.lo, b.oppHp.lo⟩ q := by
        intro p o c hp ho hc
        obtain ⟨ctx', hctx', hcl⟩ := classifyCorner_eq_ok hc
        obtain rfl := Option.some.inj (hctx.symm.trans hctx')
        rw [← hcl, hcongr ctx hp ho]
      rw [hsame hplo hohi h01, hsame hphi holo h10, hsame hphi hohi h11, cornersVerdict_const]
      intro h
      cases h
    · rintro r h ⟨ctx, p, o⟩ ⟨hctx, hp, ho⟩
      obtain ⟨ctx', hctx', hv⟩ := classifyBucket_eq_ok h
      obtain rfl := Option.some.inj (hctx.symm.trans hctx')
      rw [hcongr ctx hplo hohi, hcongr ctx hphi holo, hcongr ctx hphi hohi,
        cornersVerdict_const] at hv
      have hpin : p ∈ pseg := ⟨hplo.1.trans hp.1, hp.2.trans hphi.2⟩
      have hoin : o ∈ oseg := ⟨holo.1.trans ho.1, ho.2.trans hohi.2⟩
      rw [hcongr ctx hpin hoin, Except.ok.inj hv]
    · rintro ⟨⟨ctx, p, o⟩, hctx, _⟩ h₁ h₂ h₃ h₄
      refine ⟨classify V ⟨ctx, b.playerHp.lo, b.oppHp.lo⟩ q, ?_⟩
      simp only [classifyBucket, classifyCorner_of_interned hctx, h₁, h₂, h₃, h₄, ok_bind,
        hcongr ctx hplo hohi, hcongr ctx hphi holo, hcongr ctx hphi hohi, cornersVerdict_const]

def keepThirty : Question := { keepHp := 30 }

def plainView : TerminalView Unit := ⟨fun _ => false, fun _ => false, fun _ => 0⟩

def plainRegistry : BreakpointRegistry Unit :=
  ⟨fun _ _ => 100, fun _ _ => some [50], fun _ _ => .ok [], fun _ _ => .ok []⟩

def keptBucket : Bucket := ⟨0, ⟨31, 49, by decide⟩, .singleton 0, 0⟩

def oneContext : ContextInterner Unit := ⟨[()], by decide, by decide⟩

theorem keptBucket_win :
    classifyBucket plainView keptBucket keepThirty oneContext = .ok .win ∧
      ∀ s, keptBucket.HasMember oneContext s → classify plainView s keepThirty = .win := by
  have hexact := classifyBucket_exact plainView plainRegistry keptBucket keepThirty oneContext
  have hrun : classifyBucket plainView keptBucket keepThirty oneContext = .ok .win := by decide
  have hseed : ∃ bp, plainRegistry.instantiate () keepThirty = .ok bp ∧
      bp.player.InOneSegment keptBucket.playerHp ∧ bp.opp.InOneSegment keptBucket.oppHp := by
    refine ⟨_, rfl, ⟨⟨31, 49, by decide⟩, ?_, by decide, by decide⟩,
      ⟨.singleton 0, ?_, by decide, by decide⟩⟩
    · decide
    · decide
  obtain ⟨bp, hbp, hp, ho⟩ := hseed
  exact ⟨hrun, (hexact.2.2 () bp hbp hp ho).2.1 _ hrun⟩

end NuzlockeSolver
