import NuzlockeSolver.Bsolver.Collapse
import NuzlockeSolver.Bucket.Cover
import NuzlockeSolver.Bucket.WinSound
import NuzlockeSolver.Simulation

/-!
# Buckets stand for their states

A bucket stands for the states of its context whose HP lie in its intervals. Where the turn does
not leave, between the corners of a sub-rectangle, what lies between the end states of the two
corners, the children of an expansion stand for all that the states of the bucket can turn into. A
win over buckets is then a win from every state of the root.
-/

namespace NuzlockeSolver

open AndOrGraph

variable {Ctx : Type}

/-- The states that a key stands for. -/
structure Member (J : ContextInterner Ctx) (s : BattleState Ctx) (k : BucketKey) : Prop where
  context : J.exemplars[k.d.toNat]? = some s.ctx
  player : k.plLo ≤ s.playerHp ∧ s.playerHp ≤ k.plHi
  opp : k.opLo ≤ s.oppHp ∧ s.oppHp ≤ k.opHi

structure Between (leaf : SubRectLeaf Ctx) (s : BattleState Ctx) : Prop where
  context : s.ctx = leaf.loChild.ctx
  player : s.playerHp ∈ imageInterval leaf.loChild.playerHp leaf.hiChild.playerHp
  opp : s.oppHp ∈ imageInterval leaf.loChild.oppHp leaf.hiChild.oppHp

variable [DecidableEq Ctx]

/-- The turn bridges the sub-rectangles of an expansion that went through: whatever the turn makes
of a state in the rectangle lies between the end states of one leaf. -/
def Bridges (X : ExpandContext Ctx) (I : ContextInterner Ctx) (A : Bucket) (move : ExecAction) :
    Prop :=
  ∀ rects, inputRects X I A move = .ok rects → ∀ r ∈ rects, ∀ lo hi leaves,
    cornerState I A r.player.lo r.opp.lo = .ok lo → cornerState I A r.player.hi r.opp.hi = .ok hi →
    runLeaves X lo hi move = .ok leaves → ∀ s : BattleState Ctx, s.ctx = lo.ctx →
    s.playerHp ∈ r.player → s.oppHp ∈ r.opp → ∀ found stats,
    step (oracleEnv X s move) = .ok (found, stats) →
    ∀ end' ∈ found, ∃ leaf ∈ leaves, Between leaf end'.child

/-- The per-state problem and the bucket problem of one engine, on the keys that a search can
reach from a root. -/
structure Represents (X : ExpandContext Ctx) (J : ContextInterner Ctx)
    (P : BProblem (BattleState Ctx))
    (W : WinProblem) (q : Question) (N : Set BucketKey) : Prop where
  exact : X.canonicalizePp = false
  classify : ∀ {s k}, k ∈ N → Member J s k → P.classify s = W.classify k
  legal : ∀ {s k a}, k ∈ N → Member J s k → a ∈ (W.corner k).legal → a ∈ P.legal s
  -- every child of a state is the end state of a leaf of the oracle
  step : ∀ {s a}, a ∈ P.legal s → ∀ c ∈ (P.step s a).flatten, ∃ found stats,
    NuzlockeSolver.step (oracleEnv X s a) = .ok (found, stats) ∧ ∃ leaf ∈ found, leaf.child = c
  nonempty : ∀ {s a}, P.classify s = .cont → a ∈ P.legal s → (P.step s a).flatten ≠ []
  -- what the search knows of an action is what some expansion of a bucket with the key returned
  expand : ∀ {k a}, k ∈ N → (winGraph W q).live k → (winGraph W q).usable k a →
    ∃ I I' A, keyOf A = k ∧ I'.Extends J ∧
      NuzlockeSolver.expand X I A a = .ok (W.expand k a, I') ∧ Bridges X I A a
  reach : ∀ {k a}, k ∈ N → (winGraph W q).live k → (winGraph W q).usable k a →
    (winGraph W q).next k a ⊆ N

variable {X : ExpandContext Ctx} {I J : ContextInterner Ctx} {P : BProblem (BattleState Ctx)}
  {W : WinProblem} {q : Question} {N : Set BucketKey}

omit [DecidableEq Ctx] in
theorem exists_mem_subRects {A : Bucket} {plPts opPts : List Int} {p o : Int}
    (hp : p ∈ A.playerHp) (ho : o ∈ A.oppHp) :
    ∃ r ∈ subRects A plPts opPts, p ∈ r.player ∧ o ∈ r.opp := by
  obtain ⟨player, hplayer, hp⟩ := exists_mem_splitAxis A.playerHp.lo_le_hi hp.1 hp.2
  obtain ⟨opp, hopp, ho⟩ := exists_mem_splitAxis A.oppHp.lo_le_hi ho.1 ho.2
  exact ⟨⟨player, opp⟩,
    List.mem_flatMap.2 ⟨player, hplayer, List.mem_map.2 ⟨opp, hopp, rfl⟩⟩, hp, ho⟩

omit [DecidableEq Ctx] in
theorem context_of_cornerState {A : Bucket} {p o : Int} {s : BattleState Ctx}
    (h : cornerState I A p o = .ok s) : I.exemplars[A.d.toNat]? = some s.ctx :=
  (ContextInterner.unpack_eq_ok.1 (liftFault_eq_ok.1 h)).1

omit [DecidableEq Ctx] in
theorem exists_id {ctx : Ctx} (h : ∃ id : Nat, I.exemplars[id]? = some ctx) :
    ∃ d : UInt32, I.exemplars[d.toNat]? = some ctx := by
  obtain ⟨id, hid⟩ := h
  have hlt := (List.getElem?_eq_some_iff.1 hid).1
  have hbound : id < UInt32.size := by
    have hmax : I.exemplars.length ≤ 4294967295 := I.bounded
    have hsize : UInt32.size = 4294967296 := rfl
    omega
  exact ⟨UInt32.ofNat id, by rw [UInt32.toNat_ofNat_of_lt' hbound]; exact hid⟩

theorem exists_child_of_end (hexact : X.canonicalizePp = false) {I' : ContextInterner Ctx}
    (hext : I'.Extends J) {A : Bucket} {move : ExecAction} {result : ExpandResult}
    (hexpand : expand X I A move = .ok (result, I')) (htag : result.concessionTag = 0)
    (hbridges : Bridges X I A move) {s : BattleState Ctx} (hs : Member J s (keyOf A))
    {found : List (Leaf (BattleState Ctx))} {stats : StepStats}
    (hstep : step (oracleEnv X s move) = .ok (found, stats)) {leaf : Leaf (BattleState Ctx)}
    (hleaf : leaf ∈ found) :
    ∃ child ∈ result.children, Member J leaf.child (keyOf child.bucket) := by
  obtain ⟨hextI, rects, hrects, hran, hok, hcover⟩ := expand_spec hexpand htag
  have hcanonical (t : BattleState Ctx) : canonical X t = t := by
    rw [canonical, hexact, if_neg Bool.false_ne_true]
  obtain ⟨r, hr, hplayer, hopp⟩ : ∃ r ∈ rects, s.playerHp ∈ r.player ∧ s.oppHp ∈ r.opp := by
    obtain ⟨lo, -, hrects⟩ := bind_eq_ok.1 hrects
    obtain ⟨⟨plPts, opPts⟩, -, hrects⟩ := bind_eq_ok.1 hrects
    cases hrects
    exact exists_mem_subRects hs.player hs.opp
  obtain ⟨lo, hi, leaves, hlo, hhi, -, hleaves, -⟩ := hran r hr
  have hctx : s.ctx = lo.ctx := by
    have hlo := (hextI.trans hext).getElem? (context_of_cornerState hlo)
    exact Option.some.inj (hs.context.symm.trans hlo)
  obtain ⟨l, hl, hbetween⟩ := hbridges rects hrects r hr lo hi leaves hlo hhi hleaves s hctx
    hplayer hopp found stats hstep leaf hleaf
  have hleafOf : IsLeafOf X I A move rects l := ⟨r, hr, lo, hi, leaves, hlo, hhi, hleaves, hl⟩
  obtain ⟨d, hd⟩ := exists_id (hok l hleafOf).2
  obtain ⟨b, hb, hbd, -, hbp, hbo⟩ := (hcover d (supportFp X (canonical X l.loChild))
    leaf.child.playerHp leaf.child.oppHp).2
      ⟨l, hleafOf, hd, rfl, hbetween.player, hbetween.opp⟩
  obtain ⟨child, hchild, rfl⟩ := List.mem_map.1 hb
  have hcontext : J.exemplars[child.bucket.d.toNat]? = some leaf.child.ctx := by
    rw [hbd, hbetween.context, ← hcanonical l.loChild]
    exact hext.getElem? hd
  exact ⟨child, hchild, hcontext, hbp, hbo⟩

theorem Represents.simulates (h : Represents X J P W q N) :
    Simulates (winGraph W q) (bGraph P q) N (Member J) fun t s => P.pack t = P.pack s where
  won hk hs hw := (h.classify hk hs).trans hw
  live hk hs hl := (h.classify hk hs).trans hl
  inside := h.reach
  same hsame ht := region_congr hsame ht
  move := by
    intro s k a hk hs hl ha
    obtain ⟨I, I', A, rfl, hext, hexpand, hbridges⟩ := h.expand hk hl ha
    have hlegal := h.legal hk hs ha.1
    have hchild : ∀ c ∈ (P.step s a).flatten, ∃ k' ∈ (winGraph W q).next (keyOf A) a,
        Member J c k' := by
      intro c hc
      obtain ⟨found, stats, hstep, leaf, hleaf, rfl⟩ := h.step hlegal c hc
      obtain ⟨child, hmem, hmember⟩ := exists_child_of_end h.exact hext hexpand ha.2.2 hbridges hs
        hstep hleaf
      exact ⟨_, ⟨child, hmem, rfl⟩, hmember⟩
    by_cases hstay : ∃ c ∈ (P.step s a).flatten, P.pack c ≠ P.pack s
    · exact .inl ⟨⟨hlegal, ha.2.1, hstay⟩, fun c hc => hchild c hc.1⟩
    · obtain ⟨c, hc⟩ := List.exists_mem_of_ne_nil _
        (h.nonempty ((h.classify hk hs).trans hl) hlegal)
      have hpack : P.pack c = P.pack s := not_not.1 fun hne => hstay ⟨c, hc, hne⟩
      exact .inr ⟨c, hpack, hchild c hc⟩

theorem Represents.bucketWin (h : Represents X J P W q N) {cfg : BucketWinConfig} {bpFp : UInt64}
    {real : RealRoot} {root : Bucket} (cache : SharedCache W.expand bpFp) {res : BucketWinResult}
    {out : TransitionCache}
    (hcertify : bucketWinCertify ⟨W, q, cfg, bpFp⟩ real cache.cache root = .ok (res, out))
    (hwin : res.verdict = .win) (hroot : keyOf root ∈ N) {s : BattleState Ctx}
    (hs : Member J s (keyOf root)) : s ∈ (bGraph P q).region :=
  h.simulates.region ((bucketWinCertify_verdict (E := ⟨W, q, cfg, bpFp⟩) cache hcertify).1 hwin)
    hroot hs

end NuzlockeSolver
