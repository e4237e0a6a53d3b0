import NuzlockeSolver.AndOrGraph
import NuzlockeSolver.Bsolver.Bsolver

/-!
# Exactness of the per-state certifier

A stop flag is never cleared, and nothing is stored once it is set. So every stored bit was
decided by children that were themselves decided, and the WIN bits carry a certificate read off
the recorded policy.
-/

namespace NuzlockeSolver

open AndOrGraph

variable {σ : Type*}

/-- States as an AND-OR graph without self-loops: an action needs a child that is another state. -/
def bGraph (P : BProblem σ) (q : Question) : AndOrGraph σ ExecAction where
  won s := P.classify s = .win
  live s := P.classify s = .cont
  usable s a := a ∈ P.legal s ∧ actionFilter q a ∧
    ∃ c ∈ (P.step s a).flatten, P.pack c ≠ P.pack s
  next s a := {c | c ∈ (P.step s a).flatten ∧ P.pack c ≠ P.pack s}
  live_not_won := by intro s h hw; rw [h] at hw; cases hw

variable {P : BProblem σ} {q : Question} {s t : σ}

theorem not_region_of_loss (h : P.classify s = .loss) : s ∉ (bGraph P q).region :=
  not_winning_of_dead (by simp [bGraph, h]) (by simp [bGraph, h])

theorem next_congr (h : P.pack s = P.pack t) {a : ExecAction} {c : σ}
    (hc : c ∈ (bGraph P q).next s a) : ∃ c' ∈ (bGraph P q).next t a, P.pack c' = P.pack c := by
  obtain ⟨hmem, hne⟩ := hc
  obtain ⟨c', hc', hpack⟩ := P.step_congr h a c hmem
  exact ⟨c', ⟨hc', by rw [hpack, ← h]; exact hne⟩, hpack⟩

theorem usable_congr (h : P.pack s = P.pack t) {a : ExecAction}
    (ha : (bGraph P q).usable s a) : (bGraph P q).usable t a := by
  obtain ⟨hl, hf, c, hc, hne⟩ := ha
  obtain ⟨c', ⟨hc', hne'⟩, -⟩ := next_congr (q := q) h ⟨hc, hne⟩
  exact ⟨P.legal_congr h a hl, hf, c', hc', hne'⟩

theorem region_congr (h : P.pack s = P.pack t) (hs : s ∈ (bGraph P q).region) :
    t ∈ (bGraph P q).region := by
  change (bGraph P q).Winning ∅ s at hs
  induction hs generalizing t with
  | won hw => exact Winning.won ((P.classify_congr h).symm.trans hw)
  | move _ hl ha _ ih =>
    refine Winning.move (Set.notMem_empty t) ((P.classify_congr h).symm.trans hl)
      (usable_congr h ha) fun c' hc' => ?_
    obtain ⟨c, hc, hpack⟩ := next_congr h.symm hc'
    exact ih c hc hpack

namespace BsolverState

variable {S : BsolverState} {key k : PackedKey} {bits : PlaneBits}

theorem bitsAt_setBits (S : BsolverState) (key : PackedKey) (bits : PlaneBits) (k : PackedKey) :
    (S.setBits key bits).bitsAt k = if k = key then bits else S.bitsAt k := by
  obtain ⟨kc, kp, ko⟩ := k
  obtain ⟨c, p, o⟩ := key
  simp only [setBits, bitsAt, PackedKey.mk.injEq]
  by_cases hc : kc = c
  · subst hc
    by_cases hp : (kp, ko) = (p, o)
    · obtain ⟨rfl, rfl⟩ := Prod.mk.inj hp
      simp
    · have hb : ((kp, ko) == (p, o)) = false := by simpa using hp
      have hn : ¬ (kp = p ∧ ko = o) := fun h => hp (by rw [h.1, h.2])
      simp only [List.lookup_cons_self, List.lookup_cons, hb, true_and, hn, if_false]
      cases S.planes.lookup kc <;> rfl
  · have hb : (kc == c) = false := by simpa using hc
    simp [List.lookup_cons, hb, hc]

theorem memoLookup_true (h : S.memoLookup k = some true) : (S.bitsAt k).win = true := by
  simp only [memoLookup] at h
  split_ifs at h with hw
  · exact hw
  · cases h

theorem memoLookup_false (h : S.memoLookup k = some false) : (S.bitsAt k).loss = true := by
  simp only [memoLookup] at h
  split_ifs at h with hw hl
  · cases h
  · exact hl

theorem memoLookup_none (h : S.memoLookup k = none) :
    (S.bitsAt k).win = false ∧ (S.bitsAt k).loss = false := by
  simp only [memoLookup] at h
  split_ifs at h with hw hl
  exact ⟨by simpa using hw, by simpa using hl⟩

end BsolverState

open BsolverState

def chosen (P : BProblem σ) (policy : List (PackedKey × ExecAction)) (s : σ) : Option ExecAction :=
  policy.lookup (P.pack s)

/-- WIN bits are certified by the policy, LOSS bits lie outside the region, only WIN states have a
policy entry, and no state on the stack is one of them. -/
structure BInv (P : BProblem σ) (q : Question) (S : BsolverState) : Prop where
  win : ∀ s, (S.bitsAt (P.pack s)).win = true → (bGraph P q).Cert (chosen P S.policy) ∅ s
  loss : ∀ s, (S.bitsAt (P.pack s)).loss = true → s ∉ (bGraph P q).region
  entry : ∀ k a, (k, a) ∈ S.policy → (S.bitsAt k).win = true
  stack : ∀ k ∈ S.stack, (S.bitsAt k).win = false

structure BStep (P : BProblem σ) (q : Question) (S S' : BsolverState) : Prop where
  inv : BInv P q S'
  stack : S'.stack = S.stack
  win : ∀ k, (S.bitsAt k).win = true → (S'.bitsAt k).win = true
  loss : ∀ k, (S.bitsAt k).loss = true → (S'.bitsAt k).loss = true

variable {S S' : BsolverState}

theorem BStep.trans {S'' : BsolverState} (h : BStep P q S S') (h' : BStep P q S' S'') :
    BStep P q S S'' :=
  ⟨h'.inv, h'.stack.trans h.stack, fun k hk => h'.win k (h.win k hk),
    fun k hk => h'.loss k (h.loss k hk)⟩

theorem BInv.of_subset (h : BInv P q S) (hplanes : S'.planes = S.planes)
    (hpolicy : S'.policy = S.policy) (hstack : ∀ k ∈ S'.stack, (S.bitsAt k).win = false) :
    BInv P q S' := by
  have hb : ∀ k, S'.bitsAt k = S.bitsAt k := fun k => by simp only [bitsAt, hplanes]
  refine ⟨?_, ?_, ?_, fun k hk => by rw [hb]; exact hstack k hk⟩
  · intro s hs
    rw [hpolicy]
    exact h.win s (by rwa [hb] at hs)
  · intro s hs
    exact h.loss s (by rwa [hb] at hs)
  · intro k a hk
    rw [hb]
    exact h.entry k a (hpolicy ▸ hk)

theorem BInv.of_eq (h : BInv P q S) (hplanes : S'.planes = S.planes)
    (hpolicy : S'.policy = S.policy) (hstack : S'.stack = S.stack) : BStep P q S S' := by
  have hb : ∀ k, S'.bitsAt k = S.bitsAt k := fun k => by simp only [bitsAt, hplanes]
  exact ⟨h.of_subset hplanes hpolicy (hstack ▸ h.stack), hstack, fun k hk => by rwa [hb],
    fun k hk => by rwa [hb]⟩

theorem BInv.refl (h : BInv P q S) : BStep P q S S :=
  h.of_eq rfl rfl rfl

def Settled (P : BProblem σ) (S : BsolverState) (s : σ) : Prop :=
  P.classify s = .win ∨ (S.bitsAt (P.pack s)).win = true

theorem Settled.step (h : Settled P S s) (hs : BStep P q S S') : Settled P S' s :=
  h.imp_right (hs.win _)

theorem Settled.congr (h : Settled P S s) (hst : P.pack s = P.pack t) : Settled P S t := by
  simp only [Settled, ← P.classify_congr hst, ← hst]
  exact h

theorem Settled.cert (h : Settled P S s) (hinv : BInv P q S) :
    (bGraph P q).Cert (chosen P S.policy) ∅ s := by
  rcases h with hw | hb
  · exact .won hw
  · exact hinv.win s hb

def VisitExact (P : BProblem σ) (q : Question) (visit : BVisit σ) : Prop :=
  ∀ s S, BInv P q S → S.earlyStop = .none →
    BStep P q S (visit s S).2 ∧ ((visit s S).2.earlyStop = .none →
      ((visit s S).1 = true → Settled P (visit s S).2 s) ∧
      ((visit s S).1 = false → s ∉ (bGraph P q).region))

structure Enumerated (P : BProblem σ) (q : Question) (key : PackedKey) (seen : List σ)
    (e : Enumeration) (S : BsolverState) : Prop where
  running : e.aborted = false → S.earlyStop = .none ∧ e.actionWins = true ∧
    (e.hasNonSelf = true ↔ ∃ c ∈ seen, P.pack c ≠ key) ∧
    ∀ c ∈ seen, P.pack c ≠ key → Settled P S c
  refuted : e.aborted = true → e.actionWins = false ∧
    (S.earlyStop = .none → ∃ c ∈ seen, P.pack c ≠ key ∧ c ∉ (bGraph P q).region)

variable {key : PackedKey} {e : Enumeration} {visit : BVisit σ}

theorem Enumerated.append_of_aborted {seen : List σ} (h : Enumerated P q key seen e S)
    (ha : e.aborted = true) (more : List σ) : Enumerated P q key (seen ++ more) e S := by
  refine ⟨fun hr => absurd (ha.symm.trans hr) (by simp), fun hr => ⟨(h.refuted hr).1, fun he => ?_⟩⟩
  obtain ⟨c, hc, hne, hn⟩ := (h.refuted hr).2 he
  exact ⟨c, List.mem_append_left _ hc, hne, hn⟩

theorem emitChild_spec (hv : VisitExact P q visit) {seen : List σ} (child : σ)
    (hinv : BInv P q S) (h : Enumerated P q key seen e S) (ha : e.aborted = false) :
    BStep P q S (emitChild P visit key child e S).2 ∧
    (emitChild P visit key child e S).1.budgetExceeded = e.budgetExceeded ∧
    Enumerated P q key (seen ++ [child]) (emitChild P visit key child e S).1
      (emitChild P visit key child e S).2 := by
  obtain ⟨hstop, hwins, hself, hseen⟩ := h.running ha
  simp only [emitChild]
  split
  case isTrue hk =>
    refine ⟨hinv.refl, rfl, fun _ => ⟨hstop, hwins, ?_, ?_⟩,
      fun hr => absurd (ha.symm.trans hr) (by simp)⟩
    · simpa [hk] using hself
    · simpa [or_imp, forall_and, hk] using hseen
  case isFalse hk =>
    obtain ⟨hstep, hdecided⟩ := hv child S hinv hstop
    split
    case isTrue hearly =>
      exact ⟨hstep, rfl, (nomatch ·), fun _ => ⟨rfl, fun he => absurd he hearly⟩⟩
    case isFalse hearly =>
      rw [not_not] at hearly
      obtain ⟨hwin, hloss⟩ := hdecided hearly
      split
      case isTrue hlost =>
        refine ⟨hstep, rfl, (nomatch ·), fun _ => ⟨rfl, fun _ => ⟨child, by simp, hk, ?_⟩⟩⟩
        exact hloss (by simpa using hlost)
      case isFalse hwon =>
        refine ⟨hstep, rfl, fun _ => ⟨hearly, hwins, ?_, ?_⟩,
          fun hr => absurd (ha.symm.trans hr) (by simp)⟩
        · simp [hk]
        · intro c hc hne
          rcases List.mem_append.1 hc with hc | hc
          · exact (hseen c hc hne).step hstep
          · obtain rfl := List.mem_singleton.1 hc
            exact hwin (by simpa using hwon)

theorem emitGroup_spec (hv : VisitExact P q visit) (maxLeaves : Nat) (group : List σ) :
    ∀ (leaves : Nat) (seen : List σ) (e : Enumeration) (S : BsolverState), BInv P q S →
      Enumerated P q key seen e S → e.aborted = false →
      let r := emitGroup P visit key maxLeaves group leaves e S
      BStep P q S r.2 ∧
      (r.1.budgetExceeded = false → Enumerated P q key (seen ++ group) r.1 r.2) := by
  induction group with
  | nil =>
    intro leaves seen e S hinv h _
    simp only [emitGroup, List.append_nil]
    exact ⟨hinv.refl, fun _ => h⟩
  | cons child rest ih =>
    intro leaves seen e S hinv h ha
    simp only [emitGroup]
    split
    case isTrue => exact ⟨hinv.refl, (nomatch ·)⟩
    case isFalse =>
      obtain ⟨hstep, -, henum⟩ := emitChild_spec hv child hinv h ha
      split
      case isTrue hab =>
        refine ⟨hstep, fun _ => ?_⟩
        have := henum.append_of_aborted hab rest
        rwa [List.append_assoc, List.singleton_append] at this
      case isFalse hab =>
        obtain ⟨hstep', henum'⟩ := ih (leaves + 1) _ _ _ hstep.inv henum (by simpa using hab)
        refine ⟨hstep.trans hstep', fun hb => ?_⟩
        have := henum' hb
        rwa [List.append_assoc, List.singleton_append] at this

theorem oracleStep_spec (hv : VisitExact P q visit) (maxLeaves : Nat) (groups : List (List σ)) :
    ∀ (seen : List σ) (e : Enumeration) (S : BsolverState), BInv P q S →
      (e.budgetExceeded = false → Enumerated P q key seen e S) →
      let r := oracleStep P visit key maxLeaves groups e S
      BStep P q S r.2 ∧
      (r.1.budgetExceeded = false → Enumerated P q key (seen ++ groups.flatten) r.1 r.2) := by
  induction groups with
  | nil =>
    intro seen e S hinv h
    simp only [oracleStep, List.flatten_nil, List.append_nil]
    exact ⟨hinv.refl, h⟩
  | cons group rest ih =>
    intro seen e S hinv h
    simp only [oracleStep]
    split
    case isTrue hstop =>
      refine ⟨hinv.refl, fun hb => ?_⟩
      rcases hstop with hab | hbudget
      · exact (h hb).append_of_aborted hab _
      · rw [hb] at hbudget
        cases hbudget
    case isFalse hgo =>
      rw [not_or] at hgo
      obtain ⟨hstep, henum⟩ := emitGroup_spec hv maxLeaves group 0 seen e S hinv
        (h (by simpa using hgo.2)) (by simpa using hgo.1)
      obtain ⟨hstep', henum'⟩ := ih _ _ _ hstep.inv henum
      refine ⟨hstep.trans hstep', fun hb => ?_⟩
      have := henum' hb
      rwa [List.append_assoc] at this

theorem tryActions_spec (hv : VisitExact P q visit) (cfg : BsolverConfig) (s : σ)
    (actions : List ExecAction) (hlegal : ∀ a ∈ actions, a ∈ P.legal s) :
    ∀ S : BsolverState, BInv P q S → S.earlyStop = .none →
      let r := tryActions P q cfg visit s actions S
      BStep P q S r.2 ∧ (r.2.earlyStop = .none →
        (∀ a, r.1 = some a → (bGraph P q).usable s a ∧
          ∀ c ∈ (bGraph P q).next s a, Settled P r.2 c) ∧
        (r.1 = none → ∀ a ∈ actions, (bGraph P q).usable s a →
          ∃ c ∈ (bGraph P q).next s a, c ∉ (bGraph P q).region)) := by
  induction actions with
  | nil =>
    intro S hinv _
    simp only [tryActions]
    exact ⟨hinv.refl, fun _ => ⟨by simp, by simp⟩⟩
  | cons a rest ih =>
    intro S hinv hstop
    replace ih := ih fun a ha => hlegal a (List.mem_cons_of_mem _ ha)
    simp only [tryActions]
    split
    case isTrue hfilter =>
      obtain ⟨hstep, hres⟩ := ih S hinv hstop
      refine ⟨hstep, fun he => ⟨(hres he).1, fun hn b hb hu => ?_⟩⟩
      rcases List.mem_cons.1 hb with rfl | hb
      · exact absurd hu.2.1 hfilter
      · exact (hres he).2 hn b hb hu
    case isFalse hfilter =>
      rw [not_not] at hfilter
      have hcalls : BStep P q S { S with oracleStepCalls := S.oracleStepCalls + 1 } :=
        hinv.of_eq rfl rfl rfl
      have hstart : Enumerated P q (P.pack s) [] {}
          { S with oracleStepCalls := S.oracleStepCalls + 1 } :=
        ⟨fun _ => ⟨hstop, rfl, by simp, by simp⟩, (nomatch ·)⟩
      obtain ⟨hstep, henum⟩ := oracleStep_spec hv cfg.oracleMaxLeaves (P.step s a) [] {} _
        hcalls.inv fun _ => hstart
      generalize oracleStep P visit (P.pack s) cfg.oracleMaxLeaves (P.step s a) {}
        { S with oracleStepCalls := S.oracleStepCalls + 1 } = r at hstep henum
      obtain ⟨e, S₁⟩ := r
      rw [List.nil_append] at henum
      dsimp only at hstep henum ⊢
      cases hb : e.budgetExceeded with
      | true =>
        have hbudget : BStep P q S₁ (S₁.stop .leafBudget) := hstep.inv.of_eq rfl rfl rfl
        simp only [if_true, stop, ne_eq, reduceCtorEq, not_false_eq_true]
        exact ⟨(hcalls.trans hstep).trans hbudget, (nomatch ·)⟩
      | false =>
        replace henum := henum hb
        have hall := hcalls.trans hstep
        simp only [Bool.false_eq_true, if_false]
        split
        case isTrue hearly => exact ⟨hall, fun he => absurd he hearly⟩
        case isFalse hearly =>
          rw [not_not] at hearly
          split
          case isTrue hw =>
            have hrun : e.aborted = false := by
              by_contra hab
              simp [(henum.refuted (by simpa using hab)).1] at hw
            obtain ⟨-, -, hself, hseen⟩ := henum.running hrun
            refine ⟨hall, fun _ => ⟨fun b hb => ?_, (nomatch ·)⟩⟩
            obtain rfl := Option.some.inj hb
            exact ⟨⟨hlegal a List.mem_cons_self, hfilter, hself.1 hw.2⟩,
              fun c hc => hseen c hc.1 hc.2⟩
          case isFalse hw =>
            obtain ⟨hstep', hres⟩ := ih S₁ hstep.inv hearly
            refine ⟨hall.trans hstep', fun he => ⟨(hres he).1, fun hn b hb hu => ?_⟩⟩
            rcases List.mem_cons.1 hb with rfl | hb
            · cases hab : e.aborted with
              | true =>
                obtain ⟨c, hc, hne, hn⟩ := (henum.refuted hab).2 hearly
                exact ⟨c, ⟨hc, hne⟩, hn⟩
              | false =>
                obtain ⟨-, hwins, hself, -⟩ := henum.running hab
                exact absurd ⟨hwins, hself.2 hu.2.2⟩ hw
            · exact (hres he).2 hn b hb hu

theorem BInv.setLoss (h : BInv P q S) (hs : s ∉ (bGraph P q).region) :
    BStep P q S (S.setLoss (P.pack s)) := by
  have hb := bitsAt_setBits S (P.pack s) { S.bitsAt (P.pack s) with loss := true }
  have hwin : ∀ k, ((S.setLoss (P.pack s)).bitsAt k).win = (S.bitsAt k).win := by
    intro k
    rw [BsolverState.setLoss, hb]
    split
    case isTrue hk => rw [hk]
    case isFalse => rfl
  refine ⟨⟨fun t ht => h.win t (by rwa [hwin] at ht), fun t ht => ?_, fun k a hk => ?_,
    fun k hk => ?_⟩, rfl, fun k hk => by rwa [hwin], fun k hk => ?_⟩
  · rw [BsolverState.setLoss, hb] at ht
    split at ht
    case isTrue hk => exact fun hreg => hs (region_congr hk hreg)
    case isFalse => exact h.loss t ht
  · rw [hwin]
    exact h.entry k a hk
  · rw [hwin]
    exact h.stack k hk
  · rw [BsolverState.setLoss, hb]
    split
    · rfl
    · exact hk

theorem bitsAt_record (S : BsolverState) (key : PackedKey) (a : ExecAction)
    (k : PackedKey) :
    (S.record key a).bitsAt k =
      if k = key then { S.bitsAt key with win := true } else S.bitsAt k :=
  bitsAt_setBits S key _ k

/-- Storing a WIN together with its policy entry keeps the older certificates, because the entry
is new. -/
theorem BInv.record (h : BInv P q S) {a : ExecAction} (hl : P.classify s = .cont)
    (ha : (bGraph P q).usable s a) (hc : ∀ c ∈ (bGraph P q).next s a, Settled P S c)
    (hnew : (S.bitsAt (P.pack s)).win = false) (hstack : P.pack s ∉ S.stack) :
    BStep P q S (S.record (P.pack s) a) := by
  have hold : ∀ t, (bGraph P q).Cert (chosen P S.policy) ∅ t →
      (bGraph P q).Cert (chosen P ((P.pack s, a) :: S.policy)) ∅ t := by
    refine fun t => Cert.congr fun u _ hu => ?_
    have hne : (P.pack u == P.pack s) = false := by
      obtain ⟨b, hb⟩ := Option.isSome_iff_exists.1 hu
      have := h.entry _ b (mem_of_lookup hb)
      simp only [beq_eq_false_iff_ne]
      intro he
      simp [he, hnew] at this
    simp only [chosen, List.lookup_cons, hne]
  have hcert : ∀ t, P.pack t = P.pack s →
      (bGraph P q).Cert (chosen P ((P.pack s, a) :: S.policy)) ∅ t := by
    intro t ht
    refine .move (Set.notMem_empty t) ((P.classify_congr ht).trans hl) ?_
      (usable_congr ht.symm ha) fun c' hc' => ?_
    · simp [chosen, ht]
    · obtain ⟨c, hcs, hpack⟩ := next_congr ht hc'
      exact hold c' (((hc c hcs).congr hpack).cert h)
  have hwin : ∀ k, (S.bitsAt k).win = true → ((S.record (P.pack s) a).bitsAt k).win = true := by
    intro k hk
    rw [bitsAt_record]
    split <;> simp_all
  have hloss : ∀ k, ((S.record (P.pack s) a).bitsAt k).loss = (S.bitsAt k).loss := by
    intro k
    rw [bitsAt_record]
    split <;> simp_all
  refine ⟨⟨fun t ht => ?_, fun t ht => ?_, fun k b hk => ?_, fun k hk => ?_⟩, rfl, hwin,
    fun k hk => by rwa [hloss]⟩
  · rw [bitsAt_record] at ht
    split at ht
    case isTrue hk => exact hcert t hk
    case isFalse => exact hold t (h.win t ht)
  · rw [hloss] at ht
    exact h.loss t ht
  · rcases List.mem_cons.1 hk with hk | hk
    · rw [(Prod.mk.inj hk).1, bitsAt_record, if_pos rfl]
    · exact hwin k (h.entry k b hk)
  · have hne : k ≠ P.pack s := fun he => hstack (he ▸ hk)
    rw [bitsAt_record, if_neg hne]
    exact h.stack k hk

theorem pop_stack {acc : BsolverState} (hnew : key ∉ S.stack)
    (h : acc.stack = (S.push key).stack) : (acc.pop key).stack = S.stack := by
  simp only [pop, h, push, ne_eq, not_true_eq_false, decide_false, Bool.false_eq_true,
    not_false_eq_true, List.filter_cons_of_neg]
  refine List.filter_eq_self.2 fun k hk => ?_
  simp only [decide_not, Bool.not_eq_true', decide_eq_false_iff_not]
  rintro rfl
  exact hnew hk

theorem expandNode_spec (hv : VisitExact P q visit) (cfg : BsolverConfig) (hinv : BInv P q S)
    (hstop : S.earlyStop = .none) (hl : P.classify s = .cont)
    (hwin : (S.bitsAt (P.pack s)).win = false) (hstack : P.pack s ∉ S.stack) :
    let r := expandNode P q cfg visit s S
    BStep P q S r.2 ∧ (r.2.earlyStop = .none →
      (r.1 = true → Settled P r.2 s) ∧ (r.1 = false → s ∉ (bGraph P q).region)) := by
  have hpush : BInv P q (S.push (P.pack s)) := by
    refine hinv.of_subset rfl rfl fun k hk => ?_
    rcases List.mem_cons.1 hk with rfl | hk
    · exact hwin
    · exact hinv.stack k hk
  obtain ⟨hstep, hres⟩ := tryActions_spec hv cfg s (P.legal s) (fun _ ha => ha)
    (S.push (P.pack s)) hpush hstop
  simp only [expandNode]
  generalize tryActions P q cfg visit s (P.legal s) (S.push (P.pack s)) = r at hstep hres
  obtain ⟨o, S₁⟩ := r
  dsimp only at hstep hres ⊢
  have hpop : (S₁.pop (P.pack s)).stack = S.stack := pop_stack hstack hstep.stack
  have hin : P.pack s ∈ S₁.stack := hstep.stack ▸ List.mem_cons_self
  have hback : BStep P q S (S₁.pop (P.pack s)) := by
    refine ⟨hstep.inv.of_subset rfl rfl ?_, hpop, hstep.win, hstep.loss⟩
    exact fun k hk => hstep.inv.stack k (List.mem_filter.1 hk).1
  split
  case isTrue hearly => exact ⟨hback, fun he => absurd he hearly⟩
  case isFalse hearly =>
    rw [not_not] at hearly
    obtain ⟨hfound, hnone⟩ := hres hearly
    cases o with
    | some a =>
      obtain ⟨ha, hc⟩ := hfound a rfl
      have hrec := hback.inv.record hl ha hc (hstep.inv.stack _ hin) (hpop ▸ hstack)
      refine ⟨hback.trans hrec, fun _ => ⟨fun _ => .inr ?_, (nomatch ·)⟩⟩
      rw [bitsAt_record, if_pos rfl]
    | none =>
      have hout : s ∉ (bGraph P q).region := by
        intro hreg
        obtain ⟨-, a, ha, hc⟩ := Winning.exists_move hreg hl
        obtain ⟨c, hcn, hn⟩ := hnone rfl a ha.1 ha
        exact hn (hc c hcn)
      exact ⟨hback.trans (hback.inv.setLoss hout), fun _ => ⟨(nomatch ·), fun _ => hout⟩⟩

theorem bWin_exact (cfg : BsolverConfig) (remaining : Nat) :
    VisitExact P q (bWin P q cfg remaining) := by
  induction remaining with
  | zero =>
    intro s S hinv hstop
    rw [bWin]
    split
    case h_1 hc => exact ⟨hinv.refl, fun _ => ⟨fun _ => .inl hc, (nomatch ·)⟩⟩
    case h_2 hc =>
      exact ⟨hinv.refl, fun _ => ⟨(nomatch ·), fun _ => not_region_of_loss hc⟩⟩
    case h_3 => exact ⟨hinv.of_eq rfl rfl rfl, (nomatch ·)⟩
  | succ remaining ih =>
    intro s S hinv hstop
    rw [bWin]
    split
    case h_1 hc => exact ⟨hinv.refl, fun _ => ⟨fun _ => .inl hc, (nomatch ·)⟩⟩
    case h_2 hc =>
      exact ⟨hinv.refl, fun _ => ⟨(nomatch ·), fun _ => not_region_of_loss hc⟩⟩
    case h_3 hc =>
      dsimp only
      split
      case h_1 w hw =>
        refine ⟨hinv.of_eq rfl rfl rfl, fun _ => ⟨?_, ?_⟩⟩
        · rintro rfl
          exact .inr (memoLookup_true hw)
        · rintro rfl
          exact hinv.loss s (memoLookup_false hw)
      case h_2 hnone =>
        split
        case isTrue => exact ⟨hinv.of_eq rfl rfl rfl, (nomatch ·)⟩
        case isFalse hstack =>
          split
          case isTrue => exact ⟨hinv.of_eq rfl rfl rfl, (nomatch ·)⟩
          case isFalse =>
            exact expandNode_spec ih cfg hinv hstop hc (memoLookup_none hnone).1 hstack

theorem bsolverCertify_region (P : BProblem σ) (q : Question) (cfg : BsolverConfig) (s : σ) :
    let G := bGraph P q
    let r := (bsolverCertify P q cfg s).1
    let S := (bsolverCertify P q cfg s).2
    (r.verdict = .win → s ∈ (bGraph P q).region ∧
      ∀ t, Relation.ReflTransGen (G.Follow (chosen P r.policy)) s t →
        (G.won t ∨ G.live t ∧ ∃ a, r.policy.lookup (P.pack t) = some a ∧ G.usable t a) ∧
        ¬ Relation.TransGen (G.Follow (chosen P r.policy)) t t) ∧
    (r.verdict = .loss → s ∉ (bGraph P q).region) ∧
    ∀ t, ((S.bitsAt (P.pack t)).win = true → t ∈ (bGraph P q).region) ∧
      ((S.bitsAt (P.pack t)).loss = true → t ∉ (bGraph P q).region) := by
  intro G r S
  have hbits : ∀ t : σ, (({} : BsolverState).bitsAt (P.pack t)) = {} := fun t => rfl
  simp only [r, S, bsolverCertify]
  split
  case h_1 hc =>
    have hcert : G.Cert (chosen P []) ∅ s := .won hc
    refine ⟨fun _ => ⟨Winning.won hc, fun t ht => ⟨?_, hcert.acyclic ht⟩⟩, (nomatch ·),
      fun t => by simp [hbits]⟩
    exact (hcert.of_reachable ht).won_or_entry
  case h_2 hc =>
    exact ⟨(nomatch ·), fun _ => not_region_of_loss hc, fun t => by simp [hbits]⟩
  case h_3 hc =>
    have hinv : BInv P q {} :=
      ⟨fun t ht => by simp [hbits] at ht, fun t ht => by simp [hbits] at ht, by simp, by simp⟩
    obtain ⟨hstep, hres⟩ := bWin_exact cfg cfg.depthCap.toNat s {} hinv rfl
    generalize bWin P q cfg cfg.depthCap.toNat s {} = p at hstep hres
    obtain ⟨win, S'⟩ := p
    dsimp only at hstep hres ⊢
    refine ⟨fun hv => ?_, fun hv => ?_, fun t => ⟨fun ht => ?_, hstep.inv.loss t⟩⟩
    · simp only [bsolverResult] at hv ⊢
      split_ifs at hv with he hw
      rw [not_not] at he
      simp only [he, ne_eq, not_true_eq_false, if_false]
      have hcert := ((hres he).1 hw).cert hstep.inv
      refine ⟨hcert.winning, fun t ht => ⟨?_, hcert.acyclic ht⟩⟩
      exact (hcert.of_reachable ht).won_or_entry
    · simp only [bsolverResult] at hv
      split_ifs at hv with he hw
      rw [not_not] at he
      exact (hres he).2 (by simpa using hw)
    · exact (hstep.inv.win t ht).winning

/-- WIN and LOSS are exact, a WIN comes with a complete acyclic policy, and whatever stopped the
search, every stored bit agrees with the region. Bits are never cleared, so the last state shows
every bit of the run. -/
theorem bsolverCertify_exact (P : BProblem σ) (q : Question) (cfg : BsolverConfig) (s : σ)
    (W : Set σ) (hW : IsLeast {T | (bGraph P q).Closed T} W) :
    let G := bGraph P q
    let r := (bsolverCertify P q cfg s).1
    let S := (bsolverCertify P q cfg s).2
    (r.verdict = .win → s ∈ W ∧
      ∀ t, Relation.ReflTransGen (G.Follow (chosen P r.policy)) s t →
        (G.won t ∨ G.live t ∧ ∃ a, r.policy.lookup (P.pack t) = some a ∧ G.usable t a) ∧
        ¬ Relation.TransGen (G.Follow (chosen P r.policy)) t t) ∧
    (r.verdict = .loss → s ∉ W) ∧
    ∀ t, ((S.bitsAt (P.pack t)).win = true → t ∈ W) ∧
      ((S.bitsAt (P.pack t)).loss = true → t ∉ W) := by
  obtain rfl := hW.unique (bGraph P q).region_isLeast
  exact bsolverCertify_region P q cfg s

def stairs : BProblem (Fin 3) where
  classify s := if s = 2 then .win else .cont
  legal _ := [{ moveSlot := 0 }, { moveSlot := 1 }]
  step s a := if a.moveSlot = 0 then [[s]] else [[s, s + 1], [2]]
  pack s := ⟨0, 10, s.val.toUInt16⟩
  classify_congr := by decide
  legal_congr := by decide
  step_congr := by
    intro s t h
    have hst : s = t := by revert s t; decide
    exact hst ▸ fun a c hc => ⟨c, hc, rfl⟩

theorem stairs_certified :
    (bsolverCertify stairs {} {} 0).1.verdict = .win ∧ (0 : Fin 3) ∈ (bGraph stairs {}).region := by
  have hwin : (bsolverCertify stairs {} {} 0).1.verdict = .win := by decide +kernel
  exact ⟨hwin, ((bsolverCertify_exact stairs {} {} 0 _ (region_isLeast _)).1 hwin).1⟩

end NuzlockeSolver
