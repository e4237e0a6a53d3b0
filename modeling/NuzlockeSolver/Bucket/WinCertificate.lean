import NuzlockeSolver.Bucket.WinSound
import Mathlib.Data.Finset.Dedup
import Mathlib.Data.Finset.Card

/-!
# Winning certificates

The policy map is written by nested searches under different stacks, and overwritten when the
memo is off. A write is harmless because the new entry is certified by children that avoid the
bucket being written, so every certificate avoiding the current stack survives a whole visit.
-/

namespace NuzlockeSolver

open AndOrGraph

variable {E : WinEnv} {S S' : WinState} {key : BucketKey} {depth : Nat}

def policyOf (S : WinState) : BucketKey → Option ExecAction :=
  fun k => S.policy.lookup k

def stackKeys (stack : List (BucketKey × Nat)) : Set BucketKey :=
  {k | ∃ d, (k, d) ∈ stack}

def unproved (S : WinState) : Set BucketKey :=
  {k | (k, true) ∉ S.memo}

theorem stackKeys_cons (stack : List (BucketKey × Nat)) (key : BucketKey) (depth : Nat) :
    stackKeys ((key, depth) :: stack) = insert key (stackKeys stack) := by
  ext k
  simp only [stackKeys, List.mem_cons, Prod.mk.injEq, Set.mem_ofPred_eq, Set.mem_insert_iff]
  constructor
  · rintro ⟨d, ⟨hk, -⟩ | hd⟩
    · exact .inl hk
    · exact .inr ⟨d, hd⟩
  · rintro (hk | ⟨d, hd⟩)
    · exact ⟨depth, .inl ⟨hk, rfl⟩⟩
    · exact ⟨d, .inr hd⟩

theorem Fresh.notMem_stackKeys (h : Fresh E S key) : key ∉ stackKeys S.stack := by
  rintro ⟨d, hd⟩
  have := lookup_isSome_of_mem hd
  simp [h.stack] at this

structure CertInv (E : WinEnv) (S : WinState) : Prop where
  proved : ∀ k, (k, true) ∈ S.memo → E.graph.Cert (policyOf S) (unproved S) k
  disjoint : stackKeys S.stack ⊆ unproved S
  off : ¬ E.cfg.enableVerdictMemo → S.memo = []

/-- What a part of the search preserves: the stack, stored WINs and every certificate that
avoids the stack. -/
structure CertStep (E : WinEnv) (S S' : WinState) : Prop where
  inv : CertInv E S'
  stack : S'.stack = S.stack
  memo : ∀ k, (k, true) ∈ S.memo → (k, true) ∈ S'.memo
  keep : ∀ X ⊆ stackKeys S.stack, ∀ k, E.graph.Cert (policyOf S) X k →
    E.graph.Cert (policyOf S') X k

theorem CertStep.trans {S'' : WinState} (h : CertStep E S S') (h' : CertStep E S' S'') :
    CertStep E S S'' where
  inv := h'.inv
  stack := h'.stack.trans h.stack
  memo k hk := h'.memo k (h.memo k hk)
  keep X hX k hk := h'.keep X (h.stack.symm ▸ hX) k (h.keep X hX k hk)

theorem CertInv.of_eq (h : CertInv E S) (hstack : S'.stack = S.stack) (hmemo : S'.memo = S.memo)
    (hpolicy : S'.policy = S.policy) : CertStep E S S' := by
  have hP : policyOf S' = policyOf S := by
    funext k
    simp only [policyOf, hpolicy]
  have hU : unproved S' = unproved S := by simp only [unproved, hmemo]
  refine ⟨⟨?_, ?_, ?_⟩, hstack, fun k hk => hmemo ▸ hk, fun X _ k hk => hP ▸ hk⟩
  · rw [hP, hU, hmemo]
    exact h.proved
  · rw [hstack, hU]
    exact h.disjoint
  · rw [hmemo]
    exact h.off

theorem CertInv.of_frame (h : CertInv E S) (hf : Frame S S') : CertStep E S S' :=
  h.of_eq hf.stack hf.memo hf.policy

structure Proven (E : WinEnv) (S : WinState) (k : BucketKey) : Prop where
  cert : E.graph.Cert (policyOf S) (stackKeys S.stack) k
  stored : E.graph.won k ∨ ¬ E.cfg.enableVerdictMemo ∨ (k, true) ∈ S.memo

theorem Proven.step {k : BucketKey} (h : Proven E S k) (hs : CertStep E S S') :
    Proven E S' k := by
  refine ⟨?_, ?_⟩
  · rw [hs.stack]
    exact hs.keep _ subset_rfl k h.cert
  · rcases h.stored with hw | hoff | hm
    · exact .inl hw
    · exact .inr (.inl hoff)
    · exact .inr (.inr (hs.memo k hm))

def VisitCert (E : WinEnv) (depth : Nat) (visit : Bucket → WinState → Search) : Prop :=
  ∀ A S r S', Sound E S → StackBelow E S.stack depth → CertInv E S →
    visit A S = .ok (r, S') →
    CertStep E S S' ∧ (r.verdict = .win → Proven E S' (keyOf A))

theorem andOverChildren_cert {visit : Bucket → WinState → Search}
    (hs : VisitSound E depth visit) (hv : VisitCert E depth visit) (children : List ChildBucket) :
    ∀ (low : Nat) (S : WinState) (r : DfsResult) (S' : WinState), Sound E S →
      StackBelow E S.stack depth → CertInv E S →
      andOverChildren visit children low S = .ok (r, S') →
      CertStep E S S' ∧ (r.verdict = .win → ∀ c ∈ children, Proven E S' (keyOf c.bucket)) := by
  induction children with
  | nil =>
    intro low S r S' _ _ hinv h
    cases h
    exact ⟨hinv.of_eq rfl rfl rfl, by simp⟩
  | cons c rest ih =>
    intro low S r S' hS hst hinv h
    obtain ⟨⟨cr, S₁⟩, hc, h⟩ := bind_eq_ok.1 h
    obtain ⟨hS₁, hstack, -⟩ := hs _ _ _ _ hS hst hc
    obtain ⟨hstep, hproven⟩ := hv _ _ _ _ hS hst hinv hc
    dsimp only at h
    split at h
    case isTrue hwin =>
      obtain ⟨hstep', hrest⟩ := ih _ _ _ _ hS₁ (hstack.symm ▸ hst) hstep.inv h
      refine ⟨hstep.trans hstep', fun hr c' hc' => ?_⟩
      rcases List.mem_cons.1 hc' with rfl | hc'
      · exact (hproven hwin).step hstep'
      · exact hrest hr c' hc'
    case isFalse hwin =>
      cases h
      exact ⟨hstep, fun hr => absurd hr hwin⟩

theorem tryAction_cert {visit : Bucket → WinState → Search} (hs : VisitSound E depth visit)
    (hv : VisitCert E depth visit) {a : ExecAction} {o : Option DfsResult} (hS : Sound E S)
    (hst : StackBelow E S.stack depth) (hinv : CertInv E S)
    (h : tryAction E visit key a S = .ok (o, S')) :
    CertStep E S S' ∧ ∀ av, o = some av → av.verdict = .win →
      ∀ c ∈ E.graph.next key a, Proven E S' c := by
  simp only [tryAction] at h
  split at h
  case isTrue =>
    cases h
    exact ⟨hinv.of_eq rfl rfl rfl, by simp⟩
  case isFalse =>
    obtain ⟨⟨r, S₁⟩, hr, h⟩ := bind_eq_ok.1 h
    obtain ⟨rfl, hcache, hstack, hmemo, hpolicy⟩ := edgeExpand_spec hS.cache hr
    have hstep := hinv.of_eq hstack hmemo hpolicy
    split at h
    case isTrue =>
      cases h
      exact ⟨hstep.trans (hstep.inv.of_frame (frame_tallyConcession _)), by simp⟩
    case isFalse =>
      split at h
      case isTrue => cases h
      case isFalse =>
        obtain ⟨⟨av, S₂⟩, hav, h⟩ := bind_eq_ok.1 h
        cases h
        obtain ⟨hstep', hproven⟩ := andOverChildren_cert hs hv _ _ _ _ _
          ⟨hcache, hmemo ▸ hS.memo⟩ (hstack.symm ▸ hst) hstep.inv hav
        refine ⟨hstep.trans hstep', fun av' hav' hw => ?_⟩
        cases hav'
        rintro _ ⟨c, hc, rfl⟩
        exact hproven hw c hc

theorem orOverActions_cert {visit : Bucket → WinState → Search} (hs : VisitSound E depth visit)
    (hv : VisitCert E depth visit) (actions : List ExecAction)
    (hlegal : ∀ a ∈ actions, a ∈ (E.problem.corner key).legal) :
    ∀ (acc : OrResult) (S : WinState) (acc' : OrResult) (S' : WinState), Sound E S →
      StackBelow E S.stack depth → CertInv E S → acc.won = false →
      orOverActions E visit key actions acc S = .ok (acc', S') →
      ∃ S₁, CertStep E S S₁ ∧ (acc'.won = false → S' = S₁) ∧
        (acc'.won = true → ∃ a, E.graph.usable key a ∧
          S' = { S₁ with policy := (key, a) :: S₁.policy } ∧
          ∀ c ∈ E.graph.next key a, Proven E S₁ c) := by
  induction actions with
  | nil =>
    intro acc S acc' S' _ _ hinv hacc h
    cases h
    exact ⟨S, hinv.of_eq rfl rfl rfl, fun _ => rfl, by simp [hacc]⟩
  | cons a rest ih =>
    intro acc S acc' S' hS hst hinv hacc h
    obtain ⟨⟨o, S₁⟩, ho, h⟩ := bind_eq_ok.1 h
    obtain ⟨hS₁, hstack, -, htried⟩ :=
      tryAction_sound hs (hlegal a List.mem_cons_self) hS hst ho
    obtain ⟨hstep, hproven⟩ := tryAction_cert hs hv hS hst hinv ho
    replace ih := ih fun a ha => hlegal a (List.mem_cons_of_mem _ ha)
    cases o with
    | none =>
      obtain ⟨S₂, hstep', hrest⟩ := ih _ _ _ _ hS₁ (hstack.symm ▸ hst) hstep.inv hacc h
      exact ⟨S₂, hstep.trans hstep', hrest⟩
    | some av =>
      dsimp only at h
      split at h
      case isTrue hw =>
        cases h
        refine ⟨S₁, hstep, by simp [OrResult.absorb, hw], fun _ => ⟨a, ?_, rfl, ?_⟩⟩
        · exact (htried av rfl).1
        · exact hproven av rfl hw
      case isFalse hw =>
        obtain ⟨S₂, hstep', hrest⟩ := ih _ _ _ _ hS₁ (hstack.symm ▸ hst) hstep.inv
          (by simp [OrResult.absorb, hacc, hw]) h
        exact ⟨S₂, hstep.trans hstep', hrest⟩

theorem CertInv.push (h : CertInv E S) (hnew : Fresh E S key) :
    CertInv E (S.push key depth) := by
  refine ⟨h.proved, ?_, h.off⟩
  have hkey : key ∈ unproved S := by
    intro hk
    by_cases hm : E.cfg.enableVerdictMemo
    · have := lookup_isSome_of_mem hk
      simp [hnew.memo hm] at this
    · simp [h.off hm] at hk
  simp only [WinState.push, stackKeys_cons]
  exact Set.insert_subset hkey h.disjoint

theorem CertStep.pop (h : CertStep E (S.push key depth) S') (hnew : Fresh E S key) :
    CertStep E S (S'.pop key) := by
  have hstack := pop_push_stack hnew.stack h.stack
  have hsub : stackKeys S.stack ⊆ stackKeys (S.push key depth).stack := by
    simp [WinState.push, stackKeys_cons]
  refine ⟨⟨h.inv.proved, ?_, h.inv.off⟩, hstack, h.memo, fun X hX => h.keep X (hX.trans hsub)⟩
  rw [hstack]
  exact (h.stack ▸ hsub).trans h.inv.disjoint

theorem CertStep.memoize_of_ne (h : CertStep E S S') {r : DfsResult} (hr : r.verdict ≠ .win) :
    CertStep E S (memoize E key depth r S') := by
  have hstore : E.cfg.enableVerdictMemo → CertStep E S (S'.storeMemo key false) := by
    intro hm
    have hU : unproved (S'.storeMemo key false) = unproved S' := by
      simp [unproved, WinState.storeMemo]
    refine ⟨⟨fun k hk => ?_, ?_, fun hoff => absurd hm hoff⟩, h.stack, fun k hk => ?_, h.keep⟩
    · rw [hU]
      exact h.inv.proved k (by simpa [WinState.storeMemo] using hk)
    · rw [hU]
      exact h.inv.disjoint
    · exact List.mem_cons_of_mem _ (h.memo k hk)
  simp only [memoize]
  split
  · exact h
  case isFalse hm =>
    rw [not_not] at hm
    split
    case h_1 hv => exact absurd hv hr
    case h_2 =>
      split
      · exact hstore hm
      · exact h.trans (h.inv.of_eq rfl rfl rfl)
    case h_3 => exact h

/-- The winning entry of `key` is written, and its WIN stored, while its children are proven
with `key` still on the stack. -/
theorem CertStep.write (h : CertStep E (S.push key depth) S') (hnew : Fresh E S key)
    {a : ExecAction} (ha : E.graph.usable key a)
    (hc : ∀ c ∈ E.graph.next key a, Proven E S' c) (l : Nat) :
    CertStep E S (memoize E key depth ⟨.win, l⟩
      ({ S' with policy := (key, a) :: S'.policy }.pop key)) ∧
    Proven E (memoize E key depth ⟨.win, l⟩
      ({ S' with policy := (key, a) :: S'.policy }.pop key)) key := by
  generalize hS'' : { S' with policy := (key, a) :: S'.policy }.pop key = S''
  have hP : policyOf S'' = Function.update (policyOf S') key (some a) := by
    rw [← hS'']
    exact lookup_cons_eq_update _ _ _
  have hmemo : S''.memo = S'.memo := by rw [← hS'']; rfl
  have hstack : S''.stack = S.stack := by rw [← hS'']; exact pop_push_stack hnew.stack h.stack
  have hkeys : stackKeys S'.stack = insert key (stackKeys S.stack) := by
    rw [h.stack]
    exact stackKeys_cons _ _ _
  have hkey : key ∈ unproved S' := h.inv.disjoint (hkeys ▸ Set.mem_insert _ _)
  have hcert : ∀ X ⊆ stackKeys S.stack, ∀ c ∈ E.graph.next key a,
      E.graph.Cert (policyOf S') (insert key X) c := by
    intro X hX c hcn
    exact (hc c hcn).cert.anti (hkeys ▸ Set.insert_subset_insert hX)
  have hkeep : ∀ X ⊆ stackKeys S.stack, ∀ k, E.graph.Cert (policyOf S) X k →
      E.graph.Cert (policyOf S'') X k := by
    intro X hX k hk
    rw [hP]
    refine Cert.update (fun hm => hnew.notMem_stackKeys (hX hm)) hnew.live ha (hcert X hX) ?_
    exact h.keep X (hX.trans (h.stack ▸ hkeys ▸ Set.subset_insert _ _)) k hk
  have hself : E.graph.Cert (policyOf S'') (stackKeys S.stack) key :=
    hP ▸ Cert.update_self hnew.notMem_stackKeys hnew.live ha (hcert _ subset_rfl)
  have hold : ∀ k, (k, true) ∈ S'.memo → E.graph.Cert (policyOf S'') (unproved S') k := by
    intro k hk
    exact hP ▸ (h.inv.proved k hk).update_of_mem hkey _
  simp only [memoize]
  split
  case isTrue hoff =>
    refine ⟨⟨⟨?_, ?_, ?_⟩, hstack, fun k hk => hmemo ▸ h.memo k hk, hkeep⟩, ?_, ?_⟩
    · simp [hmemo, h.inv.off hoff]
    · simp [unproved, hmemo, h.inv.off hoff]
    · exact fun _ => hmemo ▸ h.inv.off hoff
    · rw [hstack]
      exact hself
    · exact .inr (.inl hoff)
  case isFalse hon =>
    rw [not_not] at hon
    have hU : unproved (S''.storeMemo key true) ⊆ unproved S' := by
      intro k hk hm
      exact hk (List.mem_cons_of_mem _ (hmemo.symm ▸ hm))
    refine ⟨⟨⟨?_, ?_, fun hoff => absurd hon hoff⟩, hstack, ?_, hkeep⟩, ?_, ?_⟩
    · intro k hk
      rcases List.mem_cons.1 hk with hk | hk
      · obtain ⟨rfl, -⟩ := Prod.mk.inj hk
        refine .move (fun hn => hn List.mem_cons_self) hnew.live ?_ ha fun c hcn => ?_
        · change policyOf S'' k = some a
          simp [hP]
        · rcases (hc c hcn).stored with hw | hoff | hm
          · exact .won hw
          · exact absurd hon hoff
          · exact (hold c hm).anti hU
      · exact (hold k (hmemo ▸ hk)).anti hU
    · intro k hk hm
      have hk' : k ∈ stackKeys S.stack := hstack ▸ hk
      rcases List.mem_cons.1 hm with hm | hm
      · exact hnew.notMem_stackKeys ((Prod.mk.inj hm).1 ▸ hk')
      · exact h.inv.disjoint (hkeys ▸ Set.mem_insert_of_mem _ hk') (hmemo ▸ hm)
    · exact fun k hk => List.mem_cons_of_mem _ (hmemo ▸ h.memo k hk)
    · change E.graph.Cert (policyOf S'') (stackKeys S''.stack) key
      rw [hstack]
      exact hself
    · exact .inr (.inr List.mem_cons_self)

theorem exploreBucket_cert {visit : Bucket → WinState → Search}
    (hs : VisitSound E (depth + 1) visit) (hv : VisitCert E (depth + 1) visit) {r : DfsResult}
    (hS : Sound E S) (hst : StackBelow E S.stack depth) (hinv : CertInv E S)
    (hnew : Fresh E S key) (h : exploreBucket E visit key depth S = .ok (r, S')) :
    CertStep E S S' ∧ (r.verdict = .win → Proven E S' key) := by
  obtain ⟨⟨acc, S₁⟩, hor, h⟩ := bind_eq_ok.1 h
  have hpush : Sound E (S.push key depth) := ⟨hS.cache, hS.memo⟩
  obtain ⟨S₂, hstep, hlost, hwon⟩ := orOverActions_cert hs hv _ (fun _ ha => ha) _ _ _ _ hpush
    (hst.push hnew.live) (hinv.push hnew) rfl hor
  cases h
  by_cases hw : acc.won
  · obtain ⟨a, ha, rfl, hc⟩ := hwon hw
    have hv : acc.verdict = .win := by simp [OrResult.verdict, hw]
    simp only [hv]
    exact ⟨(hstep.write hnew ha hc _).1, fun _ => (hstep.write hnew ha hc _).2⟩
  · have hv : acc.verdict ≠ .win := fun hv => hw (OrResult.won_of_verdict hv)
    obtain rfl := hlost (by simpa using hw)
    exact ⟨(hstep.pop hnew).memoize_of_ne hv, fun hr => absurd hr hv⟩

theorem Decided.proven {r : DfsResult} (hinv : CertInv E S) (h : Decided E S key r)
    (hw : r.verdict = .win) : Proven E S key := by
  cases h with
  | won hwon => exact ⟨.won hwon, .inl hwon⟩
  | @memo b _ _ hb =>
    obtain rfl : b = true := by
      by_contra hne
      simp [hne] at hw
    have hm := mem_of_lookup hb
    exact ⟨(hinv.proved key hm).anti hinv.disjoint, .inr (.inr hm)⟩
  | lost | capped | repeated => cases hw

theorem dfs_cert (remaining : Nat) : ∀ depth, VisitCert E depth (dfs E remaining depth) := by
  induction remaining with
  | zero =>
    intro depth A S r S' _ _ hinv h
    obtain ⟨hf, hd⟩ := (dfs_cases h).resolve_right (by simp)
    have hstep := hinv.of_frame hf
    exact ⟨hstep, fun hw => (hd.proven hinv hw).step hstep⟩
  | succ remaining ih =>
    intro depth A S r S' hS hst hinv h
    rcases dfs_cases h with ⟨hf, hd⟩ | ⟨m, S₁, hm, hf, hnew, hex⟩
    · have hstep := hinv.of_frame hf
      exact ⟨hstep, fun hw => (hd.proven hinv hw).step hstep⟩
    · obtain rfl : remaining = m := by omega
      have hstep := hinv.of_frame hf
      obtain ⟨hstep', hproven⟩ := exploreBucket_cert (dfs_sound remaining (depth + 1))
        (ih (depth + 1)) (hS.of_frame hf) (hf.stack.symm ▸ hst) hstep.inv hnew hex
      exact ⟨hstep.trans hstep', hproven⟩

section Walk

theorem auditEdge_spec (key : BucketKey) (action : ExecAction)
    (hS : S.cache.Agrees E.problem.expand E.bpFp) :
    (auditEdge E S key action).1 = E.problem.expand key action ∧
      (auditEdge E S key action).2.cache.Agrees E.problem.expand E.bpFp ∧
      (auditEdge E S key action).2.policy = S.policy := by
  have hfst := TransitionCache.lookup_fst S.cache (makeEdgeKey key E.bpFp action)
  have hedges := TransitionCache.lookup_edges S.cache (makeEdgeKey key E.bpFp action)
  simp only [auditEdge]
  split
  · exact ⟨rfl, hS, rfl⟩
  · split
    case h_1 r cache hl =>
      rw [hl] at hfst hedges
      exact ⟨hS key action r (mem_of_lookup hfst.symm), hS.of_edges hedges, rfl⟩
    case h_2 cache hl =>
      rw [hl] at hedges
      exact ⟨rfl, hS.of_edges hedges, rfl⟩

def pending (P : Policy) (onStack : List BucketKey) : Finset BucketKey :=
  (P.map Prod.fst).toFinset.filter fun k => k ∉ onStack

theorem pending_cons_lt {P : Policy} {onStack : List BucketKey} {a : ExecAction}
    (hP : P.lookup key = some a) (hnew : key ∉ onStack) :
    (pending P (key :: onStack)).card < (pending P onStack).card := by
  apply Finset.card_lt_card
  rw [Finset.ssubset_iff_of_subset]
  · refine ⟨key, ?_, by simp [pending]⟩
    simp only [pending, Finset.mem_filter, List.mem_toFinset, List.mem_map]
    exact ⟨⟨_, mem_of_lookup hP, rfl⟩, hnew⟩
  · intro k
    simp only [pending, Finset.mem_filter, List.mem_cons, not_or]
    exact fun h => ⟨h.1, h.2.2⟩

theorem pending_card_le (P : Policy) (onStack : List BucketKey) :
    (pending P onStack).card ≤ P.length := by
  calc _ ≤ (P.map Prod.fst).toFinset.card := Finset.card_filter_le _ _
    _ ≤ (P.map Prod.fst).length := List.toFinset_card_le _
    _ = P.length := List.length_map _

structure WalkInv (E : WinEnv) (P : Policy) (w : CertWalk) : Prop where
  policy : w.search.policy = P
  cache : w.search.cache.Agrees E.problem.expand E.bpFp

variable {P : Policy}

theorem certEdges_ok {build : Bucket → CertWalk → Except Fault (Nat × CertWalk)} (corner : Corner)
    (children : List ChildBucket)
    (hbuild : ∀ c ∈ children, ¬ E.graph.won (keyOf c.bucket) → ∀ w, WalkInv E P w →
      ∃ idx w', build c.bucket w = .ok (idx, w') ∧ WalkInv E P w') :
    ∀ w, WalkInv E P w →
      ∃ edges w', certEdges E build corner children w = .ok (edges, w') ∧ WalkInv E P w' := by
  induction children with
  | nil => exact fun w hw => ⟨[], w, rfl, hw⟩
  | cons c rest ih =>
    intro w hw
    replace ih := ih fun c hc => hbuild c (List.mem_cons_of_mem _ hc)
    simp only [certEdges]
    split
    case isTrue =>
      obtain ⟨edges, w', he, hw'⟩ := ih w hw
      rw [he]
      exact ⟨_, w', rfl, hw'⟩
    case isFalse hwon =>
      obtain ⟨idx, w₁, hb, hw₁⟩ := hbuild c List.mem_cons_self hwon w hw
      obtain ⟨edges, w', he, hw'⟩ := ih w₁ hw₁
      simp only [hb, he, ok_bind]
      exact ⟨_, w', rfl, hw'⟩

/-- On a certificate the walk neither meets its own stack nor misses an entry: the buckets on the
stack lead to the current one, and a certificate has no cycle. -/
theorem buildCertNode_ok (fuel : Nat) :
    ∀ (onStack : List BucketKey) (A : Bucket) (w : CertWalk), WalkInv E P w →
      E.graph.Cert (fun k => P.lookup k) ∅ (keyOf A) → ¬ E.graph.won (keyOf A) →
      (∀ k ∈ onStack, Relation.TransGen (E.graph.Follow fun k => P.lookup k) k (keyOf A)) →
      (pending P onStack).card ≤ fuel →
      ∃ idx w', buildCertNode E (fuel + 1) onStack A w = .ok (idx, w') ∧ WalkInv E P w' := by
  induction fuel with
  | zero =>
    intro onStack A w hw hcert hwon hpath hfuel
    obtain ⟨-, a, ha, -⟩ := hcert.won_or_entry.resolve_left hwon
    have hnew : keyOf A ∉ onStack := fun hm => hcert.acyclic .refl (hpath _ hm)
    have := pending_cons_lt ha hnew
    omega
  | succ fuel ih =>
    intro onStack A w hw hcert hwon hpath hfuel
    obtain ⟨hl, a, ha, -⟩ := hcert.won_or_entry.resolve_left hwon
    have hnew : keyOf A ∉ onStack := fun hm => hcert.acyclic .refl (hpath _ hm)
    have hlt := pending_cons_lt ha hnew
    rw [buildCertNode]
    simp only [hnew, if_false]
    split
    case h_1 idx _ => exact ⟨idx, w, rfl, hw⟩
    case h_2 =>
      rw [hw.policy, ha]
      obtain ⟨hexp, hagree, hpol⟩ := auditEdge_spec (keyOf A) a hw.cache
      dsimp only
      rw [hexp]
      have hw₁ : WalkInv E P { w with search := (auditEdge E w.search (keyOf A) a).2 } :=
        ⟨hpol.trans hw.policy, hagree⟩
      obtain ⟨edges, w', he, hw'⟩ := certEdges_ok (E.problem.corner (keyOf A))
        (E.problem.expand (keyOf A) a).children (fun c hc hcw w₂ hw₂ => by
          have hf : E.graph.Follow (fun k => P.lookup k) (keyOf A) (keyOf c.bucket) :=
            ⟨hl, a, ha, c, hc, rfl⟩
          refine ih (keyOf A :: onStack) c.bucket w₂ hw₂ (hcert.of_follow hf) hcw ?_ (by omega)
          intro k hk
          rcases List.mem_cons.1 hk with rfl | hk
          · exact .single hf
          · exact (hpath k hk).tail hf) _ hw₁
      rw [he]
      exact ⟨_, _, rfl, hw'.policy, hw'.cache⟩

end Walk

/-- A WIN of the search leaves a policy that covers everything it reaches from the root, has no
cycle there, and is walked by the audit without raising. -/
theorem dfs_win_certificate (P : WinProblem) (q : Question) (cfg : BucketWinConfig)
    (bpFp : UInt64) (real : RealRoot) (cache : SharedCache P.expand bpFp) (root : Bucket)
    (remaining : Nat) {r : DfsResult} {S : WinState} (hroot : P.classify (keyOf root) = .cont)
    (h : dfs ⟨P, q, cfg, bpFp⟩ remaining 0 root (.initial cfg real cache.cache) = .ok (r, S))
    (hwin : r.verdict = .win) :
    let G := winGraph P q
    (∀ k, Relation.ReflTransGen (G.Follow (policyOf S)) (keyOf root) k →
      P.classify k = .win ∨
      P.classify k = .cont ∧ ∃ a, S.policy.lookup k = some a ∧ G.usable k a) ∧
    (∀ k, Relation.ReflTransGen (G.Follow (policyOf S)) (keyOf root) k →
      ¬ Relation.TransGen (G.Follow (policyOf S)) k k) ∧
    ∀ fuel, S.policy.length < fuel →
      ∃ idx w, buildCertNode ⟨P, q, cfg, bpFp⟩ fuel [] root { search := S } = .ok (idx, w) := by
  intro G
  have hS : Sound ⟨P, q, cfg, bpFp⟩ (.initial cfg real cache.cache) :=
    sound_initial real cache.agrees
  have hinv : CertInv ⟨P, q, cfg, bpFp⟩ (.initial cfg real cache.cache) :=
    ⟨by simp [WinState.initial], by simp [stackKeys, WinState.initial],
      by simp [WinState.initial]⟩
  obtain ⟨hstep, hproven⟩ := dfs_cert _ _ _ _ _ _ hS (stackBelow_nil _ 0) hinv h
  have hfinal := (dfs_sound _ _ _ _ _ _ hS (stackBelow_nil _ 0) h).1
  have hcert : G.Cert (policyOf S) ∅ (keyOf root) :=
    (hproven hwin).cert.anti (Set.empty_subset _)
  refine ⟨fun k hk => (hcert.of_reachable hk).won_or_entry, fun k hk => hcert.acyclic hk, ?_⟩
  intro fuel hfuel
  obtain ⟨n, rfl⟩ : ∃ n, fuel = n + 1 := ⟨fuel - 1, by omega⟩
  have hwon : ¬ G.won (keyOf root) := G.live_not_won hroot
  obtain ⟨idx, w, hb, -⟩ := buildCertNode_ok (P := S.policy) n [] root { search := S }
    ⟨rfl, hfinal.cache⟩ hcert hwon (by simp) ((pending_card_le _ _).trans (by omega))
  exact ⟨idx, w, hb⟩

theorem healStall_certificate :
    ∃ S : WinState,
      (dfs ⟨healStall, {}, { enableVerdictMemo := false }, 7⟩ 5 0 (pointBucket 0 10 2)
        (.initial { enableVerdictMemo := false } ⟨0, []⟩ {})).map Prod.snd = .ok S ∧
      ∃ idx w, buildCertNode ⟨healStall, {}, { enableVerdictMemo := false }, 7⟩
        (S.policy.length + 1) [] (pointBucket 0 10 2) { search := S } = .ok (idx, w) := by
  have hrun : (dfs ⟨healStall, {}, { enableVerdictMemo := false }, 7⟩ 5 0 (pointBucket 0 10 2)
      (.initial { enableVerdictMemo := false } ⟨0, []⟩ {})).map (fun r => r.1.verdict)
        = .ok .win := by decide +kernel
  obtain ⟨⟨r, S⟩, hr, hwin⟩ := map_eq_ok.1 hrun
  refine ⟨S, by rw [hr]; rfl, ?_⟩
  exact (dfs_win_certificate healStall {} { enableVerdictMemo := false } 7 ⟨0, []⟩ (.empty _ _)
    (pointBucket 0 10 2) 5 (by decide) hr hwin).2.2 _ (Nat.lt_succ_self _)

end NuzlockeSolver
