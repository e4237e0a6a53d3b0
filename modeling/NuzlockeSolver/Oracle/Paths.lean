import Mathlib.Data.List.Nodup
import Mathlib.Algebra.BigOperators.Ring.List
import NuzlockeSolver.Oracle.Trail

/-!
# Turns without questions

On a turn made of draws alone the search emits every path of the tree once, with its probability.
-/

namespace NuzlockeSolver

variable {σ : Type}

namespace Turn

/-- The paths from the root to the leaves: forced outcomes, probability and final state. -/
def paths (aggregate : Bool) : Turn σ → List (Forced × Rat × σ)
  | done s => [([], 1, s)]
  | draw call next =>
    match call.draw.saturated with
    | some w => (next (call.draw.outcome w)).paths aggregate
    | none =>
      (call.draw.offers aggregate).flatMap fun o =>
        ((next (call.draw.outcome o.1)).paths aggregate).map fun x =>
          ((call.draw.event, o.1) :: x.1, o.2 * x.2.1, x.2.2)
  | ask _ _ _ => []

/-- At most so many unsaturated draws lie on any path. -/
def DepthLe (aggregate : Bool) : Turn σ → Nat → Prop
  | done _, _ => True
  | draw call next, n =>
    match call.draw.saturated with
    | some w => (next (call.draw.outcome w)).DepthLe aggregate n
    | none =>
      match n with
      | 0 => False
      | n + 1 => ∀ v ∈ call.draw.offered aggregate,
          (next (call.draw.outcome v)).DepthLe aggregate n
  | ask _ _ _, _ => True

/-- No turn of this kind pauses. -/
def NoQuestion (_ : RngEvent) (_ : List Int) : Prop := False

variable {aggregate : Bool} {P : ResolverCall → Prop}

theorem paths_settle (aggregate : Bool) {t : Turn σ} (A : Answers) (h : t.Over P NoQuestion) :
    (t.settle A).1.paths aggregate = t.paths aggregate := by
  induction t generalizing A with
  | done s => rfl
  | draw call next ih =>
    simp only [settle]
    split
    · rename_i w hsat
      rw [ih _ _ (h.2 _)]
      simp only [paths, hsat]
    · rfl
  | ask event options next ih => exact absurd h.1 id

theorem depthLe_saturated {call : ResolverCall} {next : Int → Turn σ} {n : Nat} {w : Int}
    (hsat : call.draw.saturated = some w) :
    (draw call next).DepthLe aggregate n ↔
      (next (call.draw.outcome w)).DepthLe aggregate n := by
  cases n <;> simp only [DepthLe, hsat]

theorem depthLe_settle {t : Turn σ} (A : Answers) {n : Nat} (h : t.Over P NoQuestion)
    (hn : t.DepthLe aggregate n) : (t.settle A).1.DepthLe aggregate n := by
  induction t generalizing A with
  | done s => trivial
  | draw call next ih =>
    simp only [settle]
    split
    · rename_i w hsat
      exact ih _ _ (h.2 _) ((depthLe_saturated hsat).1 hn)
    · exact hn
  | ask event options next ih => exact absurd h.1 id

theorem paths_draw {call : ResolverCall} {next : Int → Turn σ}
    (hsat : call.draw.saturated = none) :
    (draw call next).paths aggregate =
      (call.draw.offers aggregate).flatMap fun o =>
        ((next (call.draw.outcome o.1)).paths aggregate).map fun x =>
          ((call.draw.event, o.1) :: x.1, o.2 * x.2.1, x.2.2) := by
  simp only [paths, hsat]

theorem depthLe_of_next {call : ResolverCall} {next : Int → Turn σ} {n : Nat}
    (hsat : call.draw.saturated = none)
    (h : ∀ v, (next (call.draw.outcome v)).DepthLe aggregate n) :
    (draw call next).DepthLe aggregate (n + 1) := by
  simpa [DepthLe, hsat] using fun v _ => h v

theorem depthLe_draw {call : ResolverCall} {next : Int → Turn σ} {n : Nat}
    (hsat : call.draw.saturated = none) (h : (draw call next).DepthLe aggregate n) :
    ∃ m, n = m + 1 ∧ ∀ v ∈ call.draw.offered aggregate,
      (next (call.draw.outcome v)).DepthLe aggregate m := by
  cases n with
  | zero => simp [DepthLe, hsat] at h
  | succ m => exact ⟨m, rfl, by simpa [DepthLe, hsat] using h⟩

theorem run_finishes {t : Turn σ} (h : t.Over P NoQuestion) {c c' : Channels}
    {r : TurnResult σ} (hrun : t.run c = .ok (r, c')) : ∃ s, r = .finished s := by
  induction t generalizing c with
  | done s =>
    cases hrun
    exact ⟨s, rfl⟩
  | draw call next ih =>
    obtain ⟨⟨v, c₁⟩, _, hrun⟩ := bind_eq_ok.1 hrun
    exact ih _ (h.2 _) hrun
  | ask event options next ih => exact absurd h.1 id

theorem sum_flatMap {α β : Type*} (l : List α) (f : α → List β) (g : β → Rat) :
    ((l.flatMap f).map g).sum = (l.map fun a => ((f a).map g).sum).sum := by
  induction l with
  | nil => rfl
  | cons a l ih => simp [ih]

theorem paths_sum {t : Turn σ} (h : t.Over (·.Sound aggregate) NoQuestion) :
    ((t.paths aggregate).map fun x => x.2.1).sum = 1 := by
  induction t with
  | done s => simp [paths]
  | draw call next ih =>
    cases hsat : call.draw.saturated with
    | some w =>
      simp only [paths, hsat]
      exact ih _ (h.2 _)
    | none =>
      have hbranch : ∀ o ∈ call.draw.offers aggregate,
          ((((next (call.draw.outcome o.1)).paths aggregate).map fun x =>
            ((call.draw.event, o.1) :: x.1, o.2 * x.2.1, x.2.2)).map fun x => x.2.1).sum =
            o.2 := by
        intro o _
        rw [List.map_map]
        show (((next (call.draw.outcome o.1)).paths aggregate).map fun x =>
          o.2 * x.2.1).sum = o.2
        rw [List.sum_map_mul_left, ih _ (h.2 _), mul_one]
      rw [paths_draw hsat, sum_flatMap, List.map_congr_left hbranch]
      exact (h.1.proper hsat).sum
  | ask event options next ih => exact absurd h.1 id

theorem paths_nodup {t : Turn σ} (h : t.Over (·.Sound aggregate) NoQuestion) :
    ((t.paths aggregate).map (·.1)).Nodup := by
  induction t with
  | done s => simp [paths]
  | draw call next ih =>
    cases hsat : call.draw.saturated with
    | some w =>
      simp only [paths, hsat]
      exact ih _ (h.2 _)
    | none =>
      rw [paths_draw hsat, List.map_flatMap, List.nodup_flatMap]
      constructor
      · intro o _
        rw [List.map_map]
        have := (ih (call.draw.outcome o.1) (h.2 _)).map
          (f := fun keys : Forced => (call.draw.event, o.1) :: keys) (fun a b hab => by simpa using hab)
        simpa [Function.comp_def] using this
      · have hnodup : (call.draw.offers aggregate).Pairwise fun o o' => o.1 ≠ o'.1 :=
          List.pairwise_map.1 (h.1.proper hsat).nodup
        refine hnodup.imp fun {o o'} hne => ?_
        intro keys hk hk'
        simp only [List.map_map, List.mem_map, Function.comp_apply] at hk hk'
        obtain ⟨x, _, rfl⟩ := hk
        obtain ⟨y, _, hy⟩ := hk'
        simp only [List.cons.injEq, Prod.mk.injEq, true_and] at hy
        exact hne hy.1.symm
  | ask event options next ih => exact absurd h.1 id

end Turn

/-- If every round of the loop runs to its end and emits what it should, so does the loop. -/
theorem forEach_total {α : Type} {body : α → DfsState σ → Except Fault (DfsState σ)}
    {cost : α → Nat} {R : α → List (Leaf σ) → Prop} {maxLeaves : Nat} {l : List α}
    (hbody : ∀ a ∈ l, ∀ S, S.stopped = false → S.leaves + cost a ≤ maxLeaves →
      ∃ S' new, body a S = .ok S' ∧ S'.stopped = false ∧ S'.leaves = S.leaves + cost a ∧
        S'.emitted = S.emitted ++ new ∧ R a new)
    (S : DfsState σ) (hS : S.stopped = false) (hl : S.leaves + (l.map cost).sum ≤ maxLeaves) :
    ∃ S' news, forEach body l S = .ok S' ∧ S'.stopped = false ∧
      S'.leaves = S.leaves + (l.map cost).sum ∧ S'.emitted = S.emitted ++ news.flatten ∧
      List.Forall₂ R l news := by
  induction l generalizing S with
  | nil => exact ⟨S, [], rfl, hS, by simp, by simp, .nil⟩
  | cons a l ih =>
    simp only [List.map_cons, List.sum_cons] at hl ⊢
    obtain ⟨S₁, new, h₁, hS₁, hl₁, he₁, hR⟩ := hbody a List.mem_cons_self S hS (by omega)
    obtain ⟨S₂, news, h₂, hS₂, hl₂, he₂, hRs⟩ :=
      ih (fun b hb => hbody b (List.mem_cons_of_mem _ hb)) S₁ hS₁ (by omega)
    refine ⟨S₂, new :: news, ?_, hS₂, by omega, by rw [he₂, he₁]; simp, .cons hR hRs⟩
    rw [forEach, h₁, ok_bind, hS₁]
    exact h₂

theorem flatten_perm {α β γ : Type*} {key : β → γ} {expected : α → List γ} {l : List α}
    {news : List (List β)}
    (h : List.Forall₂ (fun a new => (new.map key).Perm (expected a)) l news) :
    (news.flatten.map key).Perm (l.flatMap expected) := by
  induction h with
  | nil => exact .refl _
  | cons hab _ ih =>
    simp only [List.flatten_cons, List.map_append, List.flatMap_cons]
    exact hab.append ih

def Leaf.record (leaf : Leaf σ) : Forced × Option Rat × σ :=
  (forcedOf leaf.path, leaf.prob, leaf.child)

section Search

variable {E : DfsEnv σ}

theorem dfs_paths (hE : E.Sound)
    (hquiet : E.turn.Over (·.Sound E.cfg.aggregateDamageRolls) Turn.NoQuestion)
    (hemit : ∀ leaves, E.emit leaves = true) {n room k : Nat} {path : Path} {t : Turn σ}
    {A : Answers} {q : Rat} {S : DfsState σ} (h : Trail E path k t A)
    (hn : t.DepthLe E.cfg.aggregateDamageRolls n) (hroom : n + 1 ≤ room)
    (hq : prefixProb path = some q) (hS : S.stopped = false)
    (hl : S.leaves + (t.paths E.cfg.aggregateDamageRolls).length ≤ E.cfg.maxLeaves) :
    ∃ S' new, E.dfs room path k S = .ok S' ∧ S'.stopped = false ∧
      S'.leaves = S.leaves + (t.paths E.cfg.aggregateDamageRolls).length ∧
      S'.emitted = S.emitted ++ new ∧
      (new.map Leaf.record).Perm ((t.paths E.cfg.aggregateDamageRolls).map fun x =>
        (forcedOf path ++ x.1, some (q * x.2.1 * E.oppProb), x.2.2)) := by
  induction room generalizing n k path t A q S with
  | zero => omega
  | succ room ih =>
    obtain ⟨r, c, vs, hrun, hall, -, hstep⟩ := h.step hE
    have ht := hquiet.after h.after
    have hset := ht.settle A
    have hpaths := Turn.paths_settle E.cfg.aggregateDamageRolls A ht
    have hdepth := Turn.depthLe_settle A ht hn
    generalize hsettle : t.settle A = p at hstep hset hpaths hdepth
    obtain ⟨t₂, A₂⟩ := p
    dsimp only at hset hpaths hdepth
    rw [← hpaths] at hl ⊢
    cases t₂ with
    | ask event options next => exact absurd hset.1 id
    | done s =>
      obtain ⟨rfl, hnone⟩ := hstep
      have hlt : S.leaves + 1 ≤ E.cfg.maxLeaves := by simpa [Turn.paths] using hl
      obtain ⟨hstop, hleaves, hemitted⟩ :=
        emitLeaf_spec (S := S.countExec) hS hemit hlt (E.leaf path s)
      refine ⟨_, [E.leaf path s], dfs_leaf hS hrun hall hnone, hstop, hleaves, hemitted, ?_⟩
      simp [Turn.paths, Leaf.record, DfsEnv.leaf, leafProb, hE.1, hq]
    | draw call next =>
      have hsat := Turn.settle_draw hsettle
      have hp := hset.1.proper hsat
      obtain ⟨m, rfl, hm⟩ := Turn.depthLe_draw hsat hdepth
      rcases hstep with ⟨event, options, rfl⟩ | ⟨s, idx, rfl, hidx, he, hocc⟩
      · obtain ⟨s, hs⟩ := Turn.run_finishes hquiet hrun
        cases hs
      obtain ⟨entries, hent, hperm⟩ := branchEntries_spec hE.1 hp (.inl rfl) c.log idx
      -- the number of leaves and the leaves each branch has to contribute
      let cost : PrefixEntry → Nat := fun pe =>
        ((next (call.draw.outcome pe.value)).paths E.cfg.aggregateDamageRolls).length
      let expected : PrefixEntry → List (Forced × Option Rat × σ) := fun pe =>
        ((next (call.draw.outcome pe.value)).paths E.cfg.aggregateDamageRolls).map fun x =>
          (forcedOf path ++ (call.draw.event, pe.value) :: x.1,
            some (q * (pe.prob.getD 0 * x.2.1) * E.oppProb), x.2.2)
      have hcost : (entries.map cost).sum =
          ((Turn.draw call next).paths E.cfg.aggregateDamageRolls).length := by
        rw [(hperm.map cost).sum_eq, List.map_map, Turn.paths_draw hsat, List.length_flatMap]
        refine congrArg List.sum (List.map_congr_left fun o _ => ?_)
        simp [cost, branchEntry]
      have hexpected : (entries.flatMap expected).Perm
          (((Turn.draw call next).paths E.cfg.aggregateDamageRolls).map fun x =>
            (forcedOf path ++ x.1, some (q * x.2.1 * E.oppProb), x.2.2)) := by
        refine (hperm.flatMap_right expected).trans (.of_eq ?_)
        rw [Turn.paths_draw hsat, List.map_flatMap, List.flatMap_map]
        refine List.flatMap_congr fun o _ => ?_
        simp [expected, branchEntry, Function.comp_def]
      have hbody : ∀ pe ∈ entries, ∀ S' : DfsState σ, S'.stopped = false →
          S'.leaves + cost pe ≤ E.cfg.maxLeaves →
          ∃ S'' new, E.dfs room (path ++ [pe]) (k + 1) S' = .ok S'' ∧ S''.stopped = false ∧
            S''.leaves = S'.leaves + cost pe ∧ S''.emitted = S'.emitted ++ new ∧
            (new.map Leaf.record).Perm (expected pe) := by
        intro pe hpe S' hS' hl'
        obtain ⟨o, ho, rfl⟩ := List.mem_map.1 (hperm.mem_iff.1 hpe)
        obtain ⟨S'', new, hdfs, hstop, hleaves, hemitted, hnew⟩ :=
          ih (h.branch hsettle ho hocc) (hm o.1 (List.mem_map_of_mem ho)) (by omega)
            (prefixProb_append path _ hq rfl) hS' hl'
        refine ⟨S'', new, hdfs, hstop, hleaves, hemitted, hnew.trans (.of_eq ?_)⟩
        refine List.map_congr_left fun x _ => ?_
        simp [forcedOf, branchEntry, mul_assoc]
      obtain ⟨S', news, hloop, hstop, hleaves, hemitted, hnews⟩ :=
        forEach_total hbody S.countExec hS (by rw [hcost]; exact hl)
      refine ⟨S', news.flatten, ?_, hstop, by rw [hleaves, hcost]; rfl, hemitted, ?_⟩
      · rw [dfs_branch hS hrun hall hidx he, hent]
        exact hloop
      · exact (flatten_perm hnews).trans hexpected

/-- What `dfs` is called for: each path of the tree, once, with its probability. -/
def DfsEnv.EmitsPaths (E : DfsEnv σ) : Prop :=
  ∃ S, E.dfs (maxPrefixDepth + 1) [] 0 {} = .ok S ∧
    (S.emitted.map Leaf.record).Perm ((E.turn.paths E.cfg.aggregateDamageRolls).map fun x =>
      (x.1, some (x.2.1 * E.oppProb), x.2.2)) ∧
    ((E.turn.paths E.cfg.aggregateDamageRolls).map (·.1)).Nodup ∧
    (S.emitted.map fun leaf => leaf.prob.getD 0).sum = E.oppProb

theorem emitsPaths (hE : E.Sound)
    (hquiet : E.turn.Over (·.Sound E.cfg.aggregateDamageRolls) Turn.NoQuestion)
    (hdepth : E.turn.DepthLe E.cfg.aggregateDamageRolls maxPrefixDepth)
    (hemit : ∀ leaves, E.emit leaves = true)
    (hleaves : (E.turn.paths E.cfg.aggregateDamageRolls).length ≤ E.cfg.maxLeaves) :
    E.EmitsPaths := by
  obtain ⟨S, new, hdfs, -, -, hemitted, hperm⟩ :=
    dfs_paths (S := {}) hE hquiet hemit (.root E) hdepth le_rfl rfl rfl
      (by simpa using hleaves)
  have hemitted : S.emitted = new := by simpa using hemitted
  subst hemitted
  have hperm : (S.emitted.map Leaf.record).Perm
      ((E.turn.paths E.cfg.aggregateDamageRolls).map fun x =>
        (x.1, some (x.2.1 * E.oppProb), x.2.2)) := by
    simpa [forcedOf] using hperm
  refine ⟨S, hdfs, hperm, Turn.paths_nodup hquiet, ?_⟩
  have hsum := (hperm.map fun x => x.2.1.getD 0).sum_eq
  rw [List.map_map, List.map_map] at hsum
  refine hsum.trans ?_
  show ((E.turn.paths E.cfg.aggregateDamageRolls).map fun x => x.2.1 * E.oppProb).sum = E.oppProb
  rw [List.sum_map_mul_right, Turn.paths_sum hquiet, one_mul]

theorem Draw.resolve_log_prefix {d : Draw} {c c' : Channels} {v : Int}
    (h : d.resolve c = .ok (v, c')) : ∃ L, c'.log = c.log ++ L := by
  unfold Draw.resolve at h
  split at h
  · cases h
    split
    · exact ⟨_, rfl⟩
    · exact ⟨[], by simp⟩
  · split at h
    · split at h
      · cases h
        exact ⟨_, rfl⟩
      · cases h
    · cases h
      exact ⟨_, rfl⟩

theorem Turn.run_log_prefix {t : Turn σ} {c c' : Channels} {r : TurnResult σ}
    (h : t.run c = .ok (r, c')) : ∃ L, c'.log = c.log ++ L := by
  induction t generalizing c with
  | done s =>
    cases h
    exact ⟨[], by simp⟩
  | draw call next ih =>
    obtain ⟨⟨v, c₁⟩, hres, h⟩ := bind_eq_ok.1 h
    obtain ⟨L, hL⟩ := Draw.resolve_log_prefix hres
    obtain ⟨M, hM⟩ := ih _ h
    exact ⟨L ++ M, by rw [hM, hL, List.append_assoc]⟩
  | ask event options next ih =>
    simp only [run] at h
    split at h
    · cases h
      exact ⟨[], by simp⟩
    · obtain ⟨M, hM⟩ := ih _ h
      exact ⟨_ :: M, by rw [hM, Channels.answer, List.append_assoc]; rfl⟩

theorem Turn.Reach.run_eq {t t' : Turn σ} {c c' : Channels} (h : t.Reach c t' c') :
    t.run c = t'.run c' := by
  induction h with
  | refl => rfl
  | draw hres _ ih =>
    rw [run, hres]
    exact ih
  | ask hA _ ih =>
    simp only [run, hA]
    exact ih

/-- One replay of a turn without questions. At every point of the run the counter of an event
is the number recomputed from the finished log. -/
def DfsEnv.Aligned (E : DfsEnv σ) (path : Path) (k : Nat) : Prop :=
  ∃ s c, E.turn.run (channelsOf path) = .ok (.finished s, c) ∧
    CategoryBInjection.verifyExhausted c.injection = .ok () ∧
    (forcedOf path).length = k ∧
    ((c.log.filter (·.branching)).take k).map (·.key) = forcedOf path ∧
    ∀ t' c', E.turn.Reach (channelsOf path) t' c' →
      ∀ event, c'.occ event = occOfBranch c.log c'.log.length event

theorem DfsCall.aligned (hE : E.Sound)
    (hquiet : E.turn.Over (·.Sound E.cfg.aggregateDamageRolls) Turn.NoQuestion)
    {room k : Nat} {path : Path} (h : DfsCall E room path k) : E.Aligned path k := by
  obtain ⟨t, A, ht⟩ := h.trail hE
  obtain ⟨r, c, vs, hrun, hall, hext, -⟩ := ht.step hE
  obtain ⟨s, rfl⟩ := Turn.run_finishes hquiet hrun
  refine ⟨s, c, hrun, by simp [CategoryBInjection.verifyExhausted, hall], ht.count.symm, ?_, ?_⟩
  · obtain ⟨L, hL, hkey, -⟩ := hext.log
    have hL : c.log = L := hL
    rw [hL, List.map_take, hkey, ht.count, List.take_left]
  · intro t' c' hreach event
    have hcount := hreach.counted hE.2 (.of_trail ht) fun _ => rfl
    obtain ⟨L, hL⟩ := Turn.run_log_prefix (hreach.run_eq ▸ hrun)
    rw [hcount event, occOfBranch, occOfBranch, List.take_length, hL, List.take_left]

/-- Replays stay aligned with their prefix, and within the depth cap and the leaf budget each
path of the tree is emitted once. -/
theorem prefix_alignment (E : DfsEnv σ) (hcollapse : E.cfg.collapse = .none)
    (hturn : E.turn.Over (·.Sound E.cfg.aggregateDamageRolls) Turn.NoQuestion) :
    (∀ room k path, DfsCall E room path k → E.Aligned path k) ∧
      (E.turn.DepthLe E.cfg.aggregateDamageRolls maxPrefixDepth →
        (∀ leaves, E.emit leaves = true) →
        (E.turn.paths E.cfg.aggregateDamageRolls).length ≤ E.cfg.maxLeaves → E.EmitsPaths) := by
  have hE : E.Sound := ⟨hcollapse, hturn.mono fun _ _ h => h.elim⟩
  exact ⟨fun room k path h => h.aligned hE hturn, emitsPaths hE hturn⟩

end Search

/-- A Quick Claw draw, and an accuracy draw if it does not activate. -/
def quickClawTurn : Turn Int :=
  .draw (.quickClaw 50) fun v =>
    if v = 1 then .done 1 else .draw (.accuracy 90 false 50 0) fun hit => .done (2 + hit)

def quickClawEnv : DfsEnv Int where
  turn := quickClawTurn
  oppAction := {}
  oppProb := 1 / 2
  emit := fun _ => true
  cfg := {}

theorem separated_of_bernoulli {d : Draw} {aggregate : Bool} {p : Rat} (hd : d.dmgByRoll = none)
    (hprob : d.prob = bernoulli p) (hsupp : d.support = [0, 1])
    (hdef : d.default = 0 ∨ d.default = 1)
    (h0 : tolerance < |p|) (h1 : tolerance < |p - 1|) : d.Separated aggregate := by
  intro _ v hv
  have hv : v = 0 ∨ v = 1 := by
    rcases hv with rfl | hv
    · exact hdef
    · simpa [Draw.offered_of_plain (.inl hd), hsupp] using hv
  rcases hv with rfl | rfl
  · simpa [hprob, bernoulli] using h0
  · simpa [hprob, bernoulli] using h1

theorem quickClawTurn_sound : quickClawTurn.Over (·.Sound true) Turn.NoQuestion := by
  have htol : tolerance = 1 / 10 ^ 12 := rfl
  refine ⟨⟨trivial, ?_⟩, fun v => ?_⟩
  · exact separated_of_bernoulli (p := 1 / 5) rfl rfl rfl (by decide +kernel)
      (by rw [htol]; norm_num) (by rw [htol]; norm_num [abs_of_neg])
  · by_cases hv : v = 1
    · simp [hv, Turn.Over]
    · dsimp only
      rw [if_neg hv]
      refine ⟨⟨trivial, ?_⟩, fun _ => trivial⟩
      exact separated_of_bernoulli (p := 90 / 100) rfl rfl rfl (by decide +kernel)
        (by rw [htol]; norm_num) (by rw [htol]; norm_num [abs_of_neg])

theorem quickClawTurn_depthLe : quickClawTurn.DepthLe true maxPrefixDepth := by
  refine Turn.depthLe_of_next (n := 127) rfl fun v => ?_
  by_cases hv : (ResolverCall.quickClaw 50).draw.outcome v = 1
  · simp [hv, Turn.DepthLe]
  · rw [if_neg hv]
    exact Turn.depthLe_of_next (n := 126) (by decide +kernel) fun _ => trivial

theorem quickClaw_alignment :
    (∀ room k path, DfsCall quickClawEnv room path k → quickClawEnv.Aligned path k) ∧
      quickClawEnv.EmitsPaths := by
  obtain ⟨haligned, hpaths⟩ := prefix_alignment quickClawEnv rfl quickClawTurn_sound
  exact ⟨haligned, hpaths quickClawTurn_depthLe (fun _ => rfl) (by decide +kernel)⟩

def nearCertainEnv : DfsEnv Int where
  turn := .draw (.accuracy (100 - 1 / 10 ^ 11) false 50 0) .done
  oppAction := {}
  oppProb := 1
  emit := fun _ => true
  cfg := {}

theorem not_emitsPaths_of_length {E : DfsEnv σ} {n : Nat}
    (hdfs : (E.dfs (maxPrefixDepth + 1) [] 0 {}).map (fun S => S.emitted.length) = .ok n)
    (hn : n ≠ (E.turn.paths E.cfg.aggregateDamageRolls).length) : ¬ E.EmitsPaths := by
  rintro ⟨S, hS, hperm, -⟩
  rw [hS] at hdfs
  have hlen : S.emitted.length = n := Except.ok.inj hdfs
  have := hperm.length_eq
  simp only [List.length_map] at this
  exact hn (by rw [← hlen, this])

/-- A miss of probability 1e-13 is never branched on, and neither a leaf budget nor a callback
that stops the search leaves room for every path. -/
theorem paths_not_emitted :
    (nearCertainEnv.turn.Over (·.Regular) Turn.NoQuestion ∧
      nearCertainEnv.turn.DepthLe true maxPrefixDepth ∧ ¬ nearCertainEnv.EmitsPaths) ∧
      ¬ ({ quickClawEnv with cfg := { maxLeaves := 2 } } : DfsEnv Int).EmitsPaths ∧
      ¬ ({ quickClawEnv with emit := fun leaves => leaves.length < 2 } : DfsEnv Int).EmitsPaths := by
  refine ⟨⟨⟨trivial, fun _ => trivial⟩, Turn.depthLe_of_next (n := 127) (by decide +kernel) fun _ => trivial,
    not_emitsPaths_of_length (n := 1) ?_ ?_⟩, not_emitsPaths_of_length (n := 2) ?_ ?_,
    not_emitsPaths_of_length (n := 2) ?_ ?_⟩ <;> decide +kernel

end NuzlockeSolver
