import NuzlockeSolver.AndOrGraph
import NuzlockeSolver.Bucket.WinCertify

/-!
# Soundness and exactness of the bucket search

A FAIL with lowlink `l` refutes winning plays that avoid the stack entries of depth at least `l`;
a FAIL whose lowlink reaches its own depth therefore refutes winning absolutely, which is what
the memo relies on.
-/

namespace NuzlockeSolver

open AndOrGraph

/-- Buckets as an AND-OR graph: the player picks an allowed, unconceded action. -/
def winGraph (P : WinProblem) (q : Question) : AndOrGraph BucketKey ExecAction where
  won k := P.classify k = .win
  live k := P.classify k = .cont
  usable k a := a ∈ (P.corner k).legal ∧ actionFilter q a ∧ (P.expand k a).concessionTag = 0
  next k a := {c | ∃ child ∈ (P.expand k a).children, keyOf child.bucket = c}
  live_not_won := by intro k h hw; rw [h] at hw; cases hw

namespace WinEnv

abbrev graph (E : WinEnv) : AndOrGraph BucketKey ExecAction :=
  winGraph E.problem E.q

end WinEnv

variable {E : WinEnv} {S S' : WinState} {key : BucketKey} {depth : Nat}

structure Frame (S S' : WinState) : Prop where
  edges : S'.cache.edges = S.cache.edges
  stack : S'.stack = S.stack
  memo : S'.memo = S.memo
  policy : S'.policy = S.policy

theorem Frame.trans {S'' : WinState} (h : Frame S S') (h' : Frame S' S'') : Frame S S'' :=
  ⟨h'.edges.trans h.edges, h'.stack.trans h.stack, h'.memo.trans h.memo,
    h'.policy.trans h.policy⟩

theorem frame_recordReason (r : IndetReason) : Frame S (S.recordReason r) := by
  simp only [WinState.recordReason]
  split <;> exact ⟨rfl, rfl, rfl, rfl⟩

theorem frame_tallyConcession (tag : UInt32) : Frame S (S.tallyConcession tag) :=
  ⟨rfl, rfl, rfl, rfl⟩

theorem frame_containmentScan (k : BucketKey) : Frame S (S.containmentScan k) := by
  simp only [WinState.containmentScan]
  split <;> exact ⟨rfl, rfl, rfl, rfl⟩

theorem frame_settled {o : Option DfsResult} (h : settled E key S = (o, S')) : Frame S S' := by
  simp only [settled] at h
  split at h
  · cases h; exact ⟨rfl, rfl, rfl, rfl⟩
  · cases h; exact ⟨rfl, rfl, rfl, rfl⟩
  · split at h
    · cases h; exact ⟨rfl, rfl, rfl, rfl⟩
    · split at h
      · cases h; exact ⟨rfl, rfl, rfl, rfl⟩
      · cases h; exact frame_containmentScan key

inductive Decided (E : WinEnv) (S : WinState) (key : BucketKey) : DfsResult → Prop
  | won (h : E.graph.won key) : Decided E S key ⟨.win, lowlinkInf⟩
  | lost (h : E.problem.classify key = .loss) : Decided E S key ⟨.fail, lowlinkInf⟩
  | memo {b : Bool} (he : E.cfg.enableVerdictMemo) (hl : E.graph.live key)
      (hb : S.memo.lookup key = some b) :
      Decided E S key ⟨if b then .win else .fail, lowlinkInf⟩
  | capped : Decided E S key ⟨.indet, lowlinkInf⟩
  | repeated {ancestor : Nat} (hl : E.graph.live key) (hd : (key, ancestor) ∈ S.stack) :
      Decided E S key ⟨.fail, ancestor⟩

structure Fresh (E : WinEnv) (S : WinState) (key : BucketKey) : Prop where
  live : E.graph.live key
  stack : S.stack.lookup key = none
  memo : E.cfg.enableVerdictMemo → S.memo.lookup key = none

theorem settled_cases {o : Option DfsResult} (h : settled E key S = (o, S')) :
    (∃ r, o = some r ∧ Decided E S key r) ∨
    (o = none ∧ E.graph.live key ∧ (E.cfg.enableVerdictMemo → S.memo.lookup key = none)) := by
  simp only [settled] at h
  split at h
  case h_1 hc => cases h; exact .inl ⟨_, rfl, .won hc⟩
  case h_2 hc => cases h; exact .inl ⟨_, rfl, .lost hc⟩
  case h_3 hc =>
    split at h
    case isTrue hm =>
      cases h
      exact .inr ⟨rfl, hc, fun he => absurd he hm⟩
    case isFalse hm =>
      rw [not_not] at hm
      split at h
      case h_1 b hb => cases h; exact .inl ⟨_, rfl, .memo hm hc hb⟩
      case h_2 hb => cases h; exact .inr ⟨rfl, hc, fun _ => hb⟩

theorem dfs_cases {remaining : Nat} {A : Bucket} {r : DfsResult}
    (h : dfs E remaining depth A S = .ok (r, S')) :
    (Frame S S' ∧ Decided E S (keyOf A) r) ∨
    ∃ m S₁, remaining = m + 1 ∧ Frame S S₁ ∧ Fresh E S₁ (keyOf A) ∧
      exploreBucket E (dfs E m (depth + 1)) (keyOf A) depth S₁ = .ok (r, S') := by
  have hvis : Frame S (S.visit depth) := ⟨rfl, rfl, rfl, rfl⟩
  rw [dfs] at h
  dsimp only at h
  split at h
  case h_1 r' S₁ hset =>
    cases h
    rcases settled_cases hset with ⟨r', hr', hd⟩ | ⟨hr', -⟩
    · cases hr'
      refine .inl ⟨hvis.trans (frame_settled hset), ?_⟩
      cases hd with
      | won h => exact .won h
      | lost h => exact .lost h
      | memo he hl hb => exact .memo he hl hb
      | capped => exact .capped
      | repeated hl hd => exact .repeated hl hd
    · cases hr'
  case h_2 S₁ hset =>
    have hf := hvis.trans (frame_settled hset)
    obtain ⟨-, hl, hmemo⟩ := (settled_cases hset).resolve_left (by simp)
    split at h
    case h_1 =>
      cases h
      exact .inl ⟨hf.trans (frame_recordReason _), .capped⟩
    case h_2 m =>
      split at h
      case h_1 ancestor hanc =>
        cases h
        rw [hf.stack] at hanc
        exact .inl ⟨⟨hf.edges, hf.stack, hf.memo, hf.policy⟩, .repeated hl (mem_of_lookup hanc)⟩
      case h_2 hnew =>
        split at h
        case isTrue =>
          cases h
          have hf' : Frame S₁ { S₁ with visitCapHit := true } := ⟨rfl, rfl, rfl, rfl⟩
          exact .inl ⟨(hf.trans hf').trans (frame_recordReason _), .capped⟩
        case isFalse =>
          exact .inr ⟨m, S₁, rfl, hf, ⟨hl, hnew, hf.memo ▸ hmemo⟩, h⟩

theorem edgeExpand_spec {action : ExecAction} {r : ExpandResult}
    (hS : S.cache.Agrees E.problem.expand E.bpFp)
    (h : edgeExpand E S key action = .ok (r, S')) :
    r = E.problem.expand key action ∧ S'.cache.Agrees E.problem.expand E.bpFp ∧
      S'.stack = S.stack ∧ S'.memo = S.memo ∧ S'.policy = S.policy := by
  simp only [edgeExpand] at h
  split at h
  · cases h
    exact ⟨rfl, hS, rfl, rfl, rfl⟩
  · have hfst := TransitionCache.lookup_fst S.cache (makeEdgeKey key E.bpFp action)
    have hedges := TransitionCache.lookup_edges S.cache (makeEdgeKey key E.bpFp action)
    split at h
    case h_1 r' cache hl =>
      cases h
      rw [hl] at hfst hedges
      exact ⟨hS key action r (mem_of_lookup hfst.symm), hS.of_edges hedges, rfl, rfl, rfl⟩
    case h_2 cache hl =>
      rw [hl] at hedges
      obtain ⟨cache', hins, h⟩ := bind_eq_ok.1 h
      cases h
      exact ⟨rfl, (hS.of_edges hedges).insert hins, rfl, rfl, rfl⟩

def forbidden (stack : List (BucketKey × Nat)) (l : Nat) : Set BucketKey :=
  {k | ∃ d, (k, d) ∈ stack ∧ l ≤ d}

theorem forbidden_anti {stack : List (BucketKey × Nat)} {l l' : Nat} (h : l ≤ l') :
    forbidden stack l' ⊆ forbidden stack l :=
  fun _ ⟨d, hd, hl⟩ => ⟨d, hd, h.trans hl⟩

theorem forbidden_cons_subset (stack : List (BucketKey × Nat)) (key : BucketKey) (depth l : Nat) :
    forbidden ((key, depth) :: stack) l ⊆ insert key (forbidden stack l) := by
  rintro k ⟨d, hd, hl⟩
  rcases List.mem_cons.1 hd with hd | hd
  · exact .inl (Prod.mk.inj hd).1
  · exact .inr ⟨d, hd, hl⟩

structure StackBelow (E : WinEnv) (stack : List (BucketKey × Nat)) (depth : Nat) : Prop where
  live : ∀ k d, (k, d) ∈ stack → E.graph.live k
  lt : ∀ k d, (k, d) ∈ stack → d < depth

theorem stackBelow_nil (E : WinEnv) (depth : Nat) : StackBelow E [] depth :=
  ⟨by simp, by simp⟩

theorem StackBelow.push {stack : List (BucketKey × Nat)} (h : StackBelow E stack depth)
    (hl : E.graph.live key) : StackBelow E ((key, depth) :: stack) (depth + 1) := by
  constructor
  · intro k d hd
    rcases List.mem_cons.1 hd with hd | hd
    · exact (Prod.mk.inj hd).1 ▸ hl
    · exact h.live k d hd
  · intro k d hd
    rcases List.mem_cons.1 hd with hd | hd
    · have := (Prod.mk.inj hd).2
      omega
    · have := h.lt k d hd
      omega

theorem StackBelow.forbidden_eq_empty {stack : List (BucketKey × Nat)} {l : Nat}
    (h : StackBelow E stack depth) (hl : depth ≤ l) : forbidden stack l = ∅ := by
  ext k
  simp only [forbidden, Set.mem_ofPred_eq, Set.mem_empty_iff_false, iff_false]
  rintro ⟨d, hd, hld⟩
  have := h.lt k d hd
  omega

structure Sound (E : WinEnv) (S : WinState) : Prop where
  cache : S.cache.Agrees E.problem.expand E.bpFp
  memo : ∀ k b, (k, b) ∈ S.memo → (b = true ↔ k ∈ E.graph.region)

theorem Sound.of_frame (h : Sound E S) (hf : Frame S S') : Sound E S' :=
  ⟨h.cache.of_edges hf.edges, hf.memo ▸ h.memo⟩

theorem sound_initial (real : RealRoot) {cache : TransitionCache}
    (h : cache.Agrees E.problem.expand E.bpFp) : Sound E (.initial E.cfg real cache) :=
  ⟨h, by simp [WinState.initial]⟩

structure Judged (E : WinEnv) (stack : List (BucketKey × Nat)) (key : BucketKey)
    (r : DfsResult) : Prop where
  win : r.verdict = .win → key ∈ E.graph.region
  fail : r.verdict = .fail → ¬ E.graph.Winning (forbidden stack r.lowlink) key

def VisitSound (E : WinEnv) (depth : Nat) (visit : Bucket → WinState → Search) : Prop :=
  ∀ A S r S', Sound E S → StackBelow E S.stack depth → visit A S = .ok (r, S') →
    Sound E S' ∧ S'.stack = S.stack ∧ Judged E S.stack (keyOf A) r

theorem Decided.judged {r : DfsResult} (hS : Sound E S) (h : Decided E S key r) :
    Judged E S.stack key r := by
  cases h with
  | won hw => exact ⟨fun _ => Winning.won hw, (nomatch ·)⟩
  | lost hloss =>
    exact ⟨(nomatch ·), fun _ => not_winning_of_dead (by simp [winGraph, hloss])
      (by simp [winGraph, hloss])⟩
  | @memo b _ _ hb =>
    have hmem := hS.memo key b (mem_of_lookup hb)
    cases b with
    | true => exact ⟨fun _ => hmem.1 rfl, fun hf => by simp at hf⟩
    | false =>
      refine ⟨fun hf => by simp at hf, fun _ hwin => ?_⟩
      exact absurd (hmem.2 (hwin.anti (Set.empty_subset _))) (by simp)
  | capped => exact ⟨(nomatch ·), (nomatch ·)⟩
  | repeated hl hd =>
    exact ⟨(nomatch ·), fun _ => not_winning_of_mem hl ⟨_, hd, le_rfl⟩⟩

/-- The AND loop: WIN means every child is in the region, and FAIL names a child that cannot be
won without meeting the stack at the reported lowlink. -/
theorem andOverChildren_sound {visit : Bucket → WinState → Search}
    (hv : VisitSound E depth visit) (children : List ChildBucket) :
    ∀ (low : Nat) (S : WinState) (r : DfsResult) (S' : WinState), Sound E S →
      StackBelow E S.stack depth → andOverChildren visit children low S = .ok (r, S') →
      Sound E S' ∧ S'.stack = S.stack ∧ r.lowlink ≤ low ∧
      (r.verdict = .win → ∀ c ∈ children, keyOf c.bucket ∈ E.graph.region) ∧
      (r.verdict = .fail → ∃ c ∈ children,
        ¬ E.graph.Winning (forbidden S.stack r.lowlink) (keyOf c.bucket)) := by
  induction children with
  | nil =>
    intro low S r S' hS _ h
    cases h
    exact ⟨hS, rfl, le_rfl, by simp, fun hf => by simp at hf⟩
  | cons c rest ih =>
    intro low S r S' hS hst h
    obtain ⟨⟨cr, S₁⟩, hc, h⟩ := bind_eq_ok.1 h
    obtain ⟨hS₁, hstack, hj⟩ := hv _ _ _ _ hS hst hc
    dsimp only at h
    split at h
    case isTrue hwin =>
      obtain ⟨hS', hstack', hlow, hw, hf⟩ := ih _ _ _ _ hS₁ (hstack ▸ hst) h
      refine ⟨hS', hstack'.trans hstack, hlow.trans (min_le_left _ _), ?_, ?_⟩
      · intro hr c' hc'
        rcases List.mem_cons.1 hc' with rfl | hc'
        · exact hj.win hwin
        · exact hw hr c' hc'
      · intro hr
        obtain ⟨c', hc', hn⟩ := hf hr
        exact ⟨c', List.mem_cons_of_mem _ hc', hstack ▸ hn⟩
    case isFalse hwin =>
      cases h
      refine ⟨hS₁, hstack, min_le_left _ _, fun hr => absurd hr hwin, fun hr => ?_⟩
      refine ⟨c, List.mem_cons_self, fun hn => hj.fail hr (hn.anti ?_)⟩
      exact forbidden_anti (min_le_right _ _)

theorem tryAction_sound {visit : Bucket → WinState → Search} (hv : VisitSound E depth visit)
    {a : ExecAction} (ha : a ∈ (E.problem.corner key).legal) {o : Option DfsResult}
    (hS : Sound E S) (hst : StackBelow E S.stack depth)
    (h : tryAction E visit key a S = .ok (o, S')) :
    Sound E S' ∧ S'.stack = S.stack ∧ (o = none → ¬ E.graph.usable key a) ∧
    ∀ av, o = some av → E.graph.usable key a ∧
      (av.verdict = .win → E.graph.next key a ⊆ E.graph.region) ∧
      (av.verdict = .fail → ∃ c ∈ E.graph.next key a,
        ¬ E.graph.Winning (forbidden S.stack av.lowlink) c) := by
  simp only [tryAction] at h
  split at h
  case isTrue hfilter =>
    cases h
    exact ⟨hS, rfl, fun _ hu => absurd hu.2.1 hfilter, by simp⟩
  case isFalse hfilter =>
    rw [not_not] at hfilter
    obtain ⟨⟨r, S₁⟩, hr, h⟩ := bind_eq_ok.1 h
    obtain ⟨rfl, hcache, hstack, hmemo, -⟩ := edgeExpand_spec hS.cache hr
    have hS₁ : Sound E S₁ := ⟨hcache, hmemo ▸ hS.memo⟩
    split at h
    case isTrue htag =>
      cases h
      have hf := frame_tallyConcession (S := S₁) (E.problem.expand key a).concessionTag
      exact ⟨hS₁.of_frame hf, hf.stack.trans hstack, fun _ hu => absurd hu.2.2 htag, by simp⟩
    case isFalse htag =>
      rw [not_not] at htag
      split at h
      case isTrue => cases h
      case isFalse =>
        obtain ⟨⟨av, S₂⟩, hav, h⟩ := bind_eq_ok.1 h
        cases h
        obtain ⟨hS₂, hstack₂, -, hwin, hfail⟩ :=
          andOverChildren_sound hv _ _ _ _ _ hS₁ (hstack.symm ▸ hst) hav
        refine ⟨hS₂, hstack₂.trans hstack, by simp, fun av' hav' => ?_⟩
        cases hav'
        refine ⟨⟨ha, hfilter, htag⟩, ?_, ?_⟩
        · rintro hw _ ⟨c, hc, rfl⟩
          exact hwin hw c hc
        · intro hf
          obtain ⟨c, hc, hn⟩ := hfail hf
          exact ⟨_, ⟨c, hc, rfl⟩, hstack ▸ hn⟩

/-- `a` is refuted by the lowlink accumulated so far, unless some action was indeterminate. -/
def Refuted (E : WinEnv) (stack : List (BucketKey × Nat)) (key : BucketKey) (acc : OrResult)
    (a : ExecAction) : Prop :=
  acc.anyIndet = false → E.graph.usable key a →
    ∃ c ∈ E.graph.next key a, ¬ E.graph.Winning (forbidden stack acc.lowlink) c

theorem Refuted.mono {stack : List (BucketKey × Nat)} {acc acc' : OrResult} {a : ExecAction}
    (h : Refuted E stack key acc a) (hlow : acc'.lowlink ≤ acc.lowlink)
    (hind : acc.anyIndet = true → acc'.anyIndet = true) : Refuted E stack key acc' a := by
  intro hi hu
  have hi' : acc.anyIndet = false := by
    by_contra hne
    simp [hind (by simpa using hne)] at hi
  obtain ⟨c, hc, hn⟩ := h hi' hu
  exact ⟨c, hc, fun hn' => hn (hn'.anti (forbidden_anti hlow))⟩

theorem orOverActions_sound {visit : Bucket → WinState → Search}
    (hv : VisitSound E depth visit) (actions : List ExecAction)
    (hlegal : ∀ a ∈ actions, a ∈ (E.problem.corner key).legal) :
    ∀ (acc : OrResult) (S : WinState) (acc' : OrResult) (S' : WinState), Sound E S →
      StackBelow E S.stack depth → acc.won = false →
      orOverActions E visit key actions acc S = .ok (acc', S') →
      Sound E S' ∧ S'.stack = S.stack ∧ acc'.lowlink ≤ acc.lowlink ∧
      (acc.anyIndet = true → acc'.anyIndet = true) ∧
      (acc'.won = true → ∃ a, E.graph.usable key a ∧ E.graph.next key a ⊆ E.graph.region) ∧
      (acc'.won = false → ∀ a ∈ actions, Refuted E S.stack key acc' a) := by
  induction actions with
  | nil =>
    intro acc S acc' S' hS _ hacc h
    cases h
    exact ⟨hS, rfl, le_rfl, id, by simp [hacc], by simp⟩
  | cons a rest ih =>
    intro acc S acc' S' hS hst hacc h
    replace ih := ih fun a ha => hlegal a (List.mem_cons_of_mem _ ha)
    obtain ⟨⟨o, S₁⟩, ho, h⟩ := bind_eq_ok.1 h
    obtain ⟨hS₁, hstack, hskip, htried⟩ :=
      tryAction_sound hv (hlegal a List.mem_cons_self) hS hst ho
    cases o with
    | none =>
      obtain ⟨hS', hstack', hlow, hind, hwin, hfail⟩ :=
        ih _ _ _ _ hS₁ (hstack.symm ▸ hst) hacc h
      refine ⟨hS', hstack'.trans hstack, hlow, hind, hwin, fun hw b hb => ?_⟩
      rcases List.mem_cons.1 hb with rfl | hb
      · exact fun _ hu => absurd hu (hskip rfl)
      · exact hstack ▸ hfail hw b hb
    | some av =>
      obtain ⟨hu, hwins, hfails⟩ := htried av rfl
      dsimp only at h
      split at h
      case isTrue hw =>
        cases h
        refine ⟨⟨hS₁.cache, hS₁.memo⟩, hstack, min_le_left _ _, ?_, fun _ => ⟨a, hu, hwins hw⟩, ?_⟩
        · intro hi
          simp [OrResult.absorb, hi]
        · simp [OrResult.absorb, hw]
      case isFalse hw =>
        obtain ⟨hS', hstack', hlow, hind, hwin, hfail⟩ :=
          ih _ _ _ _ hS₁ (hstack.symm ▸ hst) (by simp [OrResult.absorb, hacc, hw]) h
        refine ⟨hS', hstack'.trans hstack, hlow.trans (min_le_left _ _), ?_, hwin, ?_⟩
        · intro hi
          exact hind (by simp [OrResult.absorb, hi])
        · intro hw' b hb
          rcases List.mem_cons.1 hb with rfl | hb
          · have habsorb : Refuted E S.stack key (acc.absorb av) b → Refuted E S.stack key acc' b :=
              fun h => h.mono hlow hind
            refine habsorb fun hi _ => ?_
            have hf : av.verdict = .fail := by
              cases hv' : av.verdict <;> simp_all [OrResult.absorb]
            obtain ⟨c, hc, hn⟩ := hfails hf
            exact ⟨c, hc, fun hn' => hn (hn'.anti (forbidden_anti (min_le_right _ _)))⟩
          · exact hstack ▸ hfail hw' b hb

theorem memoize_sound {r : DfsResult} (depth : Nat) (hS : Sound E S)
    (hwin : r.verdict = .win → key ∈ E.graph.region)
    (hfail : r.verdict = .fail → depth ≤ r.lowlink → key ∉ E.graph.region) :
    Sound E (memoize E key depth r S) ∧ (memoize E key depth r S).stack = S.stack := by
  have hstore : ∀ b, (b = true ↔ key ∈ E.graph.region) → Sound E (S.storeMemo key b) := by
    refine fun b hb => ⟨hS.cache, fun k b' hk => ?_⟩
    rcases List.mem_cons.1 hk with hk | hk
    · obtain ⟨rfl, rfl⟩ := Prod.mk.inj hk
      exact hb
    · exact hS.memo k b' hk
  simp only [memoize]
  split
  · exact ⟨hS, rfl⟩
  · split
    case h_1 hv => exact ⟨hstore true (by simpa using hwin hv), rfl⟩
    case h_2 hv =>
      split
      case isTrue hl => exact ⟨hstore false (by simpa using hfail hv hl), rfl⟩
      case isFalse => exact ⟨⟨hS.cache, hS.memo⟩, rfl⟩
    case h_3 => exact ⟨hS, rfl⟩

theorem pop_push_stack {acc : WinState} (hnew : S.stack.lookup key = none)
    (h : acc.stack = (S.push key depth).stack) : (acc.pop key).stack = S.stack := by
  have hne : ∀ p ∈ S.stack, p.1 ≠ key := by
    intro p hp he
    have := lookup_isSome_of_mem (he ▸ hp : (key, p.2) ∈ S.stack)
    simp [hnew] at this
  simp only [WinState.pop, h, WinState.push, ne_eq, not_true_eq_false, decide_false,
    Bool.false_eq_true, not_false_eq_true, List.filter_cons_of_neg]
  exact List.filter_eq_self.2 fun p hp => by simpa using hne p hp

theorem OrResult.won_of_verdict {acc : OrResult} (h : acc.verdict = .win) : acc.won = true := by
  simp only [OrResult.verdict] at h
  split_ifs at h with hw
  exact hw

theorem OrResult.of_verdict_fail {acc : OrResult} (h : acc.verdict = .fail) :
    acc.won = false ∧ acc.anyIndet = false := by
  simp only [OrResult.verdict] at h
  split_ifs at h with hw hi
  exact ⟨by simpa using hw, by simpa using hi⟩

theorem exploreBucket_sound {visit : Bucket → WinState → Search}
    (hv : VisitSound E (depth + 1) visit) {r : DfsResult} (hS : Sound E S)
    (hst : StackBelow E S.stack depth) (hnew : Fresh E S key)
    (h : exploreBucket E visit key depth S = .ok (r, S')) :
    Sound E S' ∧ S'.stack = S.stack ∧ Judged E S.stack key r := by
  obtain ⟨⟨acc, S₁⟩, hor, h⟩ := bind_eq_ok.1 h
  have hpush : Sound E (S.push key depth) := ⟨hS.cache, hS.memo⟩
  obtain ⟨hS₁, hstack₁, -, -, hwin, hfail⟩ :=
    orOverActions_sound hv _ (fun _ ha => ha) _ _ _ _ hpush (hst.push hnew.live) rfl hor
  cases h
  have hj : Judged E S.stack key ⟨acc.verdict, acc.lowlink⟩ := by
    constructor
    · intro hw
      obtain ⟨a, hu, hsub⟩ := hwin (OrResult.won_of_verdict hw)
      exact E.graph.region_closed.move key a hnew.live hu hsub
    · intro hf hwinning
      obtain ⟨hwon, hind⟩ := OrResult.of_verdict_fail hf
      obtain ⟨a, hu, hall⟩ := hwinning.exists_move_avoiding hnew.live
      obtain ⟨c, hc, hn⟩ := hfail hwon a hu.1 hind hu
      exact hn ((hall c hc).anti (forbidden_cons_subset _ _ _ _))
  have hpop := pop_push_stack hnew.stack hstack₁
  have hSpop : Sound E (S₁.pop key) := ⟨hS₁.cache, hS₁.memo⟩
  have hmemo := memoize_sound depth hSpop hj.win
    fun hf hle hreg => hj.fail hf (by rwa [hst.forbidden_eq_empty hle])
  refine ⟨hmemo.1, hmemo.2.trans hpop, hj.win, fun hf => ?_⟩
  have hf' : acc.verdict = .fail := hf
  simpa [hf'] using hj.fail hf

theorem dfs_sound (remaining : Nat) :
    ∀ depth, VisitSound E depth (dfs E remaining depth) := by
  induction remaining with
  | zero =>
    intro depth A S r S' hS hst h
    obtain ⟨hf, hd⟩ := (dfs_cases h).resolve_right (by simp)
    exact ⟨hS.of_frame hf, hf.stack, hd.judged hS⟩
  | succ remaining ih =>
    intro depth A S r S' hS hst h
    rcases dfs_cases h with ⟨hf, hd⟩ | ⟨m, S₁, hm, hf, hnew, hex⟩
    · exact ⟨hS.of_frame hf, hf.stack, hd.judged hS⟩
    · obtain rfl : remaining = m := by omega
      have := exploreBucket_sound (ih (depth + 1)) (hS.of_frame hf) (hf.stack.symm ▸ hst) hnew hex
      exact hf.stack ▸ this

theorem winThread_dfs {real : RealRoot} {root : Bucket} {v : V}
    (h : winThread E real root S = .ok (v, S')) :
    ∃ r S₁, dfs E (effectiveDepthCap E.cfg real).toNat 0 root S = .ok (r, S₁) ∧
      (v = .win → r.verdict = .win) ∧ (v = .fail → r.verdict = .fail) := by
  obtain ⟨⟨r, S₁⟩, hdfs, h⟩ := bind_eq_ok.1 h
  refine ⟨r, S₁, hdfs, ?_⟩
  dsimp only at h
  split at h
  case isTrue hw =>
    obtain ⟨⟨ok, S₂⟩, -, h⟩ := bind_eq_ok.1 h
    dsimp only at h
    split at h <;> cases h
    · exact ⟨fun _ => hw.1, (nomatch ·)⟩
    · exact ⟨(nomatch ·), (nomatch ·)⟩
  case isFalse =>
    cases h
    exact ⟨id, id⟩

theorem bucketWinCertify_verdict {real : RealRoot} {root : Bucket}
    (cache : SharedCache E.problem.expand E.bpFp) {res : BucketWinResult} {out : TransitionCache}
    (h : bucketWinCertify E real cache.cache root = .ok (res, out)) :
    (res.verdict = .win → keyOf root ∈ E.graph.region) ∧
    (res.verdict = .fail → keyOf root ∉ E.graph.region) := by
  simp only [bucketWinCertify] at h
  split at h
  case h_1 hc =>
    cases h
    exact ⟨fun _ => Winning.won hc, (nomatch ·)⟩
  case h_2 hc =>
    cases h
    have hlost : Decided E { cache := cache.cache } (keyOf root) _ := .lost hc
    have hj := hlost.judged ⟨cache.agrees, by simp⟩
    refine ⟨(nomatch ·), fun _ hreg => hj.fail rfl (hreg.anti ?_)⟩
    simp [forbidden]
  case h_3 hc =>
    obtain ⟨c, hmode, h⟩ := bind_eq_ok.1 h
    obtain ⟨⟨v, S₁⟩, hthread, h⟩ := bind_eq_ok.1 h
    cases h
    obtain ⟨r, S₂, hdfs, hwin, hfail⟩ := winThread_dfs hthread
    obtain ⟨-, -, hj⟩ := dfs_sound _ _ _ _ _ _
      (sound_initial real (cache.agrees.requireMode hmode)) (stackBelow_nil E 0) hdfs
    constructor
    · intro hv
      cases v with
      | win => exact hj.win (hwin rfl)
      | fail => cases hv
      | indet => cases hv
    · intro hv hreg
      cases v with
      | win => cases hv
      | fail => exact hj.fail (hfail rfl) (hreg.anti (by simp [forbidden, WinState.initial]))
      | indet => cases hv

/-- WIN proves the root is in the least winning set and FAIL refutes it, whatever the caps, the
memo and the edge cache; so no other configuration contradicts a FAIL. -/
theorem bucketWinCertify_exact (P : WinProblem) (q : Question) (cfg : BucketWinConfig)
    (bpFp : UInt64) (real : RealRoot) (cache : SharedCache P.expand bpFp) (root : Bucket)
    (W : Set BucketKey) (hW : IsLeast {T | (winGraph P q).Closed T} W)
    {res : BucketWinResult} {out : TransitionCache}
    (h : bucketWinCertify ⟨P, q, cfg, bpFp⟩ real cache.cache root = .ok (res, out)) :
    (res.verdict = .win → keyOf root ∈ W) ∧ (res.verdict = .fail → keyOf root ∉ W) ∧
    ∀ cfg' real' (cache' : SharedCache P.expand bpFp) res' out',
      bucketWinCertify ⟨P, q, cfg', bpFp⟩ real' cache'.cache root = .ok (res', out') →
      ¬ (res.verdict = .win ∧ res'.verdict = .fail) ∧
      ¬ (res.verdict = .fail ∧ res'.verdict = .win) := by
  obtain rfl := hW.unique (winGraph P q).region_isLeast
  have hres := bucketWinCertify_verdict (E := ⟨P, q, cfg, bpFp⟩) cache h
  refine ⟨hres.1, hres.2, fun cfg' real' cache' res' out' h' => ?_⟩
  have hres' := bucketWinCertify_verdict (E := ⟨P, q, cfg', bpFp⟩) cache' h'
  exact ⟨fun hv => hres'.2 hv.2 (hres.1 hv.1), fun hv => hres.2 hv.1 (hres'.1 hv.2)⟩

def pointBucket (d : UInt32) (pl op : Int) : Bucket :=
  ⟨d, .singleton pl, .singleton op, 0⟩

def healStall : WinProblem where
  classify k := if k.opHi ≤ 0 then .win else .cont
  corner _ := ⟨[{ moveSlot := 0 }, { moveSlot := 1 }], 0, 0, false, false⟩
  expand k a :=
    if a.moveSlot = 0 then { children := [⟨pointBucket 0 10 2, {}⟩] }
    else { children := [⟨pointBucket 0 10 (k.opHi - 1), {}⟩, ⟨pointBucket 0 10 0, {}⟩] }

theorem healStall_certified :
    (bucketWinCertify ⟨healStall, {}, { depthCap := 5 }, 7⟩ ⟨0, []⟩ {} (pointBucket 0 10 2)).map
      (fun r => r.1.verdict) = .ok .win ∧
    keyOf (pointBucket 0 10 2) ∈ (winGraph healStall {}).region := by
  have hrun : (bucketWinCertify ⟨healStall, {}, { depthCap := 5 }, 7⟩ ⟨0, []⟩ {}
      (pointBucket 0 10 2)).map (fun r => r.1.verdict) = .ok .win := by decide +kernel
  refine ⟨hrun, ?_⟩
  obtain ⟨⟨res, out⟩, hres, hwin⟩ := map_eq_ok.1 hrun
  exact (bucketWinCertify_exact healStall {} _ 7 _ (.empty _ _) _ _ (region_isLeast _) hres).1 hwin

end NuzlockeSolver
