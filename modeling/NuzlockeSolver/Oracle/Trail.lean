import NuzlockeSolver.Oracle.Replay

/-!
# The prefixes of the search

Every prefix the search grows leads to a configuration of the turn, its occurrence numbers are the
ones the resolvers will count, and its next run shows the draw where that configuration settles.
-/

namespace NuzlockeSolver

variable {σ : Type}

theorem nextBranchIdx_eq_none {log : List RngEntry} {k : Nat}
    (h : (log.filter (·.branching)).length ≤ k) : nextBranchIdx log k = none := by
  induction log generalizing k with
  | nil => rfl
  | cons e log ih =>
    by_cases he : e.branching
    · have hcond : ¬ (¬ e.event.isCatB = true ∨ e.saturated = true) := by
        simpa [RngEntry.branching] using he
      simp only [List.filter_cons, he, if_true, List.length_cons] at h
      obtain ⟨k, rfl⟩ : ∃ m, k = m + 1 := ⟨k - 1, by omega⟩
      have ih := ih (k := k) (by omega)
      simp only [nextBranchIdx, hcond, if_false, ih, Option.map_none]
    · have hcond : ¬ e.event.isCatB = true ∨ e.saturated = true := by
        simp only [RngEntry.branching, Bool.and_eq_true, Bool.not_eq_true', not_and,
          Bool.not_eq_false] at he
        by_cases hc : e.event.isCatB = true
        · exact .inr (he hc)
        · exact .inl hc
      have h : (log.filter (·.branching)).length ≤ k := by
        simpa [List.filter_cons, he] using h
      simp only [nextBranchIdx, hcond, if_true, ih h, Option.map_none]

theorem nextBranchIdx_append {log rest : List RngEntry} {x : RngEntry} {k : Nat}
    (h : (log.filter (·.branching)).length = k) (hx : x.branching = true) :
    nextBranchIdx (log ++ x :: rest) k = some log.length := by
  induction log generalizing k with
  | nil =>
    have hcond : ¬ (¬ x.event.isCatB = true ∨ x.saturated = true) := by
      simpa [RngEntry.branching] using hx
    subst h
    simp only [List.nil_append, nextBranchIdx, hcond, if_false]
    rfl
  | cons e log ih =>
    by_cases he : e.branching
    · have hcond : ¬ (¬ e.event.isCatB = true ∨ e.saturated = true) := by
        simpa [RngEntry.branching] using he
      simp only [List.filter_cons, he, if_true, List.length_cons] at h
      subst h
      simp only [List.cons_append, nextBranchIdx, hcond, if_false, ih rfl, Option.map_some,
        List.length_cons]
    · have hcond : ¬ e.event.isCatB = true ∨ e.saturated = true := by
        simp only [RngEntry.branching, Bool.and_eq_true, Bool.not_eq_true', not_and,
          Bool.not_eq_false] at he
        by_cases hc : e.event.isCatB = true
        · exact .inr (he hc)
        · exact .inl hc
      have h : (log.filter (·.branching)).length = k := by
        simpa [List.filter_cons, he] using h
      simp only [List.cons_append, nextBranchIdx, hcond, if_true, ih h, Option.map_some,
        List.length_cons]

def branchEntry (event : RngEvent) (occ : Nat) (o : BranchOption) : PrefixEntry :=
  { channel := .catB, event, occurrence := occ, value := o.1, prob := o.2 }

theorem orderOptions_perm (hint : OrderingHint) (event : RngEvent) (options : List BranchOption) :
    (orderOptions hint event options).Perm options := by
  unfold orderOptions
  split
  · split <;> first | exact List.perm_insertionSort _ _ | exact .refl _
  · exact .refl _

theorem branchEntries_spec {cfg : OracleConfig} (hcfg : cfg.collapse = .none) {d : Draw}
    (hd : d.Proper cfg.aggregateDamageRolls) {v : Int} (hv : d.Taken cfg.aggregateDamageRolls v)
    (log : List RngEntry) (idx : Nat) :
    ∃ entries, branchEntries cfg log idx (d.entryOf v) = .ok entries ∧
      entries.Perm ((d.offers cfg.aggregateDamageRolls).map fun o =>
        branchEntry d.event (occOfBranch log idx d.event) (o.1, some o.2)) := by
  have hexp : expandCatbOptions (d.entryOf v) cfg.aggregateDamageRolls cfg.collapse =
      .ok ((d.offers cfg.aggregateDamageRolls).map fun (v, p) => (v, some p)) := by
    simp only [expandCatbOptions, hcfg, hd.expand v hv]
    rfl
  have hsum : checkSum (d.entryOf v).event
      ((d.offers cfg.aggregateDamageRolls).map fun (v, p) => (v, some p)) = .ok () := by
    have h1 : (((d.offers cfg.aggregateDamageRolls).map fun (v, p) =>
        ((v, some p) : BranchOption)).map fun o => o.2.getD 0).sum = 1 := by
      rw [List.map_map]
      exact hd.sum
    have : ¬ ((1 : Rat) / 10 ^ 9 < |1 - 1|) := by norm_num
    rw [checkSum, h1, if_neg (fun h => this h.2)]
  refine ⟨_, by rw [branchEntries, hexp, ok_bind, hsum, ok_bind], ?_⟩
  have hperm := orderOptions_perm cfg.hint (d.entryOf v).event
    ((d.offers cfg.aggregateDamageRolls).map fun (v, p) => (v, some p))
  refine ((hperm.filter _).map _).trans ?_
  rw [List.filter_eq_self.2, List.map_map]
  · rfl
  · intro o ho
    obtain ⟨o', ho', rfl⟩ := List.mem_map.1 ho
    simpa using (hd.pos o' ho').ne'

def forcedOf (path : Path) : Forced :=
  (path.filter fun pe => pe.channel = .catB).map fun pe => (pe.event, pe.value)

structure Trail (E : DfsEnv σ) (path : Path) (k : Nat) (t : Turn σ) (A : Answers) : Prop where
  after : E.turn.after E.cfg.aggregateDamageRolls (forcedOf path) (buildOverrides path) =
    some (t, A)
  keys : buildCatbInjection path = injectionOf (fun _ => 0) (forcedOf path)
  count : k = (forcedOf path).length

/-- A turn program whose draws and questions are as the engine makes them. -/
def DfsEnv.Sound (E : DfsEnv σ) : Prop :=
  E.cfg.collapse = .none ∧ E.turn.Over (·.Sound E.cfg.aggregateDamageRolls) CatA

namespace Turn

theorem settle_draw {t : Turn σ} {A A' : Answers} {call : ResolverCall} {next : Int → Turn σ}
    (h : t.settle A = (draw call next, A')) : call.draw.saturated = none := by
  induction t generalizing A with
  | done s => cases h
  | draw call' next' ih =>
    simp only [settle] at h
    split at h
    · exact ih _ h
    · rename_i hsat
      cases h
      exact hsat
  | ask event options next' ih =>
    simp only [settle] at h
    split at h
    · cases h
    · exact ih _ h

theorem settle_ask {t : Turn σ} {A A' : Answers} {event : RngEvent} {options : List Int}
    {next : OracleAnswer → Turn σ} (h : t.settle A = (ask event options next, A')) :
    A' event = [] := by
  induction t generalizing A with
  | done s => cases h
  | draw call' next' ih =>
    simp only [settle] at h
    split at h
    · exact ih _ h
    · cases h
  | ask event' options' next' ih =>
    simp only [settle] at h
    split at h
    · rename_i hA
      cases h
      exact hA
    · exact ih _ h

end Turn

namespace Trail

variable {E : DfsEnv σ} {path : Path} {k : Nat} {t : Turn σ} {A : Answers}

theorem root (E : DfsEnv σ) : Trail E [] 0 E.turn (fun _ => []) where
  after := by
    rw [show forcedOf [] = [] from rfl, Turn.after_nil]
    rfl
  keys := rfl
  count := rfl

theorem config_over (hE : E.Sound) (h : Trail E path k t A) :
    t.Over (·.Sound E.cfg.aggregateDamageRolls) CatA :=
  hE.2.after h.after

/-- The replay of a prefix: the whole injection is used up, in the order of the prefix. -/
theorem replay (hE : E.Sound) (h : Trail E path k t A) :
    ∃ c, E.turn.run (channelsOf path) = t.run c ∧ c.injection.all (·.consumed) ∧
      c.answers = A ∧ (channelsOf path).Ext c (forcedOf path) :=
  Turn.run_after hE.2 h.after (D := []) rfl (by simpa [channelsOf] using h.keys)

theorem buildOverrides_append (path : Path) (pe : PrefixEntry) :
    buildOverrides (path ++ [pe]) =
      if pe.channel = .catA then (Answers.add (buildOverrides path) pe.event pe.override)
      else buildOverrides path := by
  funext event
  by_cases hc : pe.channel = .catA
  · by_cases he : pe.event = event
    · subst he
      simp [buildOverrides, hc, Answers.add]
    · simp [buildOverrides, hc, he, Answers.add, Function.update_of_ne (Ne.symm he)]
  · simp [buildOverrides, hc]

theorem forcedOf_append (path : Path) (pe : PrefixEntry) :
    forcedOf (path ++ [pe]) =
      if pe.channel = .catB then forcedOf path ++ [(pe.event, pe.value)] else forcedOf path := by
  by_cases hc : pe.channel = .catB <;> simp [forcedOf, hc]

/-- A branch extends the prefix by an option of the draw, keyed by the count of its event. -/
theorem branch (h : Trail E path k t A) {call : ResolverCall} {next : Int → Turn σ}
    {A' : Answers} (hs : t.settle A = (.draw call next, A'))
    {o : Int × Rat} (ho : o ∈ call.draw.offers E.cfg.aggregateDamageRolls) {occ : Nat}
    (hocc : occ = forcedCount (forcedOf path) call.draw.event) :
    Trail E (path ++ [branchEntry call.draw.event occ (o.1, some o.2)]) (k + 1)
      (next (call.draw.outcome o.1)) A' := by
  have hf : forcedOf (path ++ [branchEntry call.draw.event occ (o.1, some o.2)]) =
      forcedOf path ++ [(call.draw.event, o.1)] := by
    rw [forcedOf_append]
    rfl
  refine ⟨?_, ?_, ?_⟩
  · rw [hf, buildOverrides_append]
    exact Turn.after_append h.after hs (List.mem_map_of_mem ho)
  · rw [hf, injectionOf_append, ← h.keys, hocc]
    simp [buildCatbInjection, branchEntry, PrefixEntry.injected, inject]
  · rw [hf, h.count]
    simp

theorem answer (h : Trail E path k t A) {pe : PrefixEntry} (hpe : pe.channel = .catA) :
    Trail E (path ++ [pe]) k t (A.add pe.event pe.override) := by
  have hne : ¬ pe.channel = .catB := by rw [hpe]; simp
  refine ⟨?_, ?_, ?_⟩
  · rw [forcedOf_append, if_neg hne, buildOverrides_append, if_pos hpe]
    exact Turn.after_add _ _ h.after
  · rw [forcedOf_append, if_neg hne, ← h.keys]
    simp [buildCatbInjection, hne]
  · rw [forcedOf_append, if_neg hne, h.count]

theorem step (hE : E.Sound) (h : Trail E path k t A) :
    ∃ r c vs, E.turn.run (channelsOf path) = .ok (r, c) ∧ c.injection.all (·.consumed) ∧
      (channelsOf path).Ext c (forcedOf path ++ vs) ∧
      match t.settle A with
      | (.done s, _) => r = .finished s ∧ nextBranchIdx c.log k = none
      | (.ask event options _, _) => r = .paused event options
      | (.draw call _, _) => (∃ event options, r = .paused event options) ∨
          ∃ s idx, r = .finished s ∧ nextBranchIdx c.log k = some idx ∧
            c.log[idx]? = some (call.draw.entryOf call.draw.default) ∧
            occOfBranch c.log idx call.draw.event =
              forcedCount (forcedOf path) call.draw.event := by
  obtain ⟨c₁, hrun₁, hall₁, hA₁, hext₁⟩ := h.replay hE
  obtain ⟨c₂, hrun₂, hall₂, hA₂, hext₂⟩ := Turn.run_settle (h.config_over hE) hall₁
  have hset := (h.config_over hE).settle A
  rw [hA₁] at hrun₂ hA₂
  have hext := hext₁.trans hext₂
  rw [List.append_nil] at hext
  obtain ⟨L, hL, hkey, hcount⟩ := hext.log
  have hL : c₂.log = L := hL
  have hlen : (L.filter (·.branching)).length = k := by
    rw [h.count, ← hkey, List.length_map]
  generalize hq : t.settle A = q at hrun₂ hset hA₂
  obtain ⟨t₂, A₂⟩ := q
  cases t₂ with
  | done s =>
    refine ⟨.finished s, c₂, [], by rw [hrun₁, hrun₂]; rfl, hall₂, by simpa using hext, rfl, ?_⟩
    rw [hL]
    exact nextBranchIdx_eq_none hlen.le
  | ask event options next =>
    have hopen : c₂.answers event = [] := by
      rw [hA₂]
      exact Turn.settle_ask hq
    refine ⟨.paused event options, c₂, [], ?_, hall₂, by simpa using hext, rfl⟩
    rw [hrun₁, hrun₂]
    simp only [Turn.run, hopen]
  | draw call next =>
    have hsat : call.draw.saturated = none := Turn.settle_draw hq
    have hp := hset.1.proper hsat
    have hsep := hset.1.separated hsat _ (.inl rfl)
    obtain ⟨c₃, hres, hinj₃, _, hlog₃, hext₃⟩ := Draw.resolve_free hp hsat hsep hall₂
    obtain ⟨r, c, vs, hrun, hall, hext'⟩ :=
      Turn.run_free (hset.2 (call.draw.outcome call.draw.default)) (c := c₃)
        (by rw [hinj₃]; exact hall₂)
    obtain ⟨M, hM, -⟩ := hext'.log
    have hclog : c.log = L ++ call.draw.entryOf call.draw.default :: M := by
      rw [hM, hlog₃, hL]
      simp
    refine ⟨r, c, _, ?_, hall, hext.trans (hext₃.trans hext'), ?_⟩
    · rw [hrun₁, hrun₂, Turn.run, hres]
      exact hrun
    · cases r with
      | paused event options => exact .inl ⟨event, options, rfl⟩
      | finished s =>
        refine .inr ⟨s, L.length, rfl, ?_, ?_, ?_⟩
        · rw [hclog]
          exact nextBranchIdx_append hlen (Draw.branching_entryOf hp hsep)
        · simp [hclog]
        · rw [← hcount, hclog, occOfBranch, List.take_left]
          rfl

end Trail

theorem prefixProb_append (path : Path) (pe : PrefixEntry) {q p : Rat}
    (hq : prefixProb path = some q) (hp : pe.prob = some p) :
    prefixProb (path ++ [pe]) = some (q * p) := by
  simp only [prefixProb] at hq
  simp [prefixProb, hq, hp]

section Call

variable {E : DfsEnv σ} {room k : Nat} {path : Path} {S : DfsState σ} {c : Channels}

theorem emitLeaf_spec (hS : S.stopped = false) (hemit : ∀ leaves, E.emit leaves = true)
    (hl : S.leaves < E.cfg.maxLeaves) (leaf : Leaf σ) :
    (S.emitLeaf E leaf).stopped = false ∧ (S.emitLeaf E leaf).leaves = S.leaves + 1 ∧
      (S.emitLeaf E leaf).emitted = S.emitted ++ [leaf] := by
  have hb : S.budgetExceeded = false := by
    simp only [DfsState.stopped, Bool.or_eq_false_iff] at hS
    exact hS.2
  rw [DfsState.emitLeaf, if_neg (not_le.2 hl)]
  exact ⟨by simp [DfsState.stopped, hemit, hb], rfl, rfl⟩

theorem dfs_paused (hS : S.stopped = false) {event : RngEvent} {options : List Int}
    (hrun : E.turn.run (channelsOf path) = .ok (.paused event options, c))
    (hall : c.injection.all (·.consumed)) :
    E.dfs (room + 1) path k S = (do
      let entries ← pauseEntries event options
      forEach (fun pe => E.dfs room (path ++ [pe]) k) entries S.countExec) := by
  simp only [DfsEnv.dfs, hS, hrun, ok_bind, hall, Bool.false_eq_true, if_false, if_true]

theorem dfs_leaf (hS : S.stopped = false) {s : σ}
    (hrun : E.turn.run (channelsOf path) = .ok (.finished s, c))
    (hall : c.injection.all (·.consumed)) (hidx : nextBranchIdx c.log k = none) :
    E.dfs (room + 1) path k S = .ok (S.countExec.emitLeaf E (E.leaf path s)) := by
  simp only [DfsEnv.dfs, hS, hrun, ok_bind, hall, hidx, Bool.false_eq_true, if_false, if_true]

theorem dfs_branch (hS : S.stopped = false) {s : σ} {idx : Nat} {e : RngEntry}
    (hrun : E.turn.run (channelsOf path) = .ok (.finished s, c))
    (hall : c.injection.all (·.consumed)) (hidx : nextBranchIdx c.log k = some idx)
    (he : c.log[idx]? = some e) :
    E.dfs (room + 1) path k S = (do
      let entries ← branchEntries E.cfg c.log idx e
      forEach (fun pe => E.dfs room (path ++ [pe]) (k + 1)) entries S.countExec) := by
  simp only [DfsEnv.dfs, hS, hrun, ok_bind, hall, hidx, he, Bool.false_eq_true, if_false, if_true]

end Call

/-- The calls `dfs` makes: room left, prefix, number of Category-B entries of the prefix. -/
inductive DfsCall (E : DfsEnv σ) : Nat → Path → Nat → Prop
  | root : DfsCall E (maxPrefixDepth + 1) [] 0
  | pause {room k : Nat} {path : Path} {event : RngEvent} {options : List Int} {c : Channels}
      {entries : List PrefixEntry} {pe : PrefixEntry} (h : DfsCall E (room + 1) path k)
      (hrun : E.turn.run (channelsOf path) = .ok (.paused event options, c))
      (hent : pauseEntries event options = .ok entries) (hpe : pe ∈ entries) :
      DfsCall E room (path ++ [pe]) k
  | branch {room k idx : Nat} {path : Path} {s : σ} {c : Channels} {e : RngEntry}
      {entries : List PrefixEntry} {pe : PrefixEntry} (h : DfsCall E (room + 1) path k)
      (hrun : E.turn.run (channelsOf path) = .ok (.finished s, c))
      (hidx : nextBranchIdx c.log k = some idx) (he : c.log[idx]? = some e)
      (hent : branchEntries E.cfg c.log idx e = .ok entries) (hpe : pe ∈ entries) :
      DfsCall E room (path ++ [pe]) (k + 1)

theorem pauseEntries_spec {event : RngEvent} {options : List Int} {entries : List PrefixEntry}
    (h : pauseEntries event options = .ok entries) :
    ∀ pe ∈ entries, pe.channel = .catA ∧ pe.event = event ∧ pe.value ∈ options ∧
      pe.prob.isSome := by
  intro pe hpe
  unfold pauseEntries at h
  split at h
  · split at h
    · cases h
      obtain ⟨boost, hboost, hpe⟩ := List.mem_flatMap.1 hpe
      obtain ⟨drop, _, rfl⟩ := List.mem_map.1 hpe
      exact ⟨rfl, rfl, hboost, rfl⟩
    · cases h
  · obtain ⟨⟨v, idx⟩, hmem, hentry⟩ := mem_of_forall₂ (mapM_except_spec h) hpe
    obtain ⟨p, _, hentry⟩ := bind_eq_ok.1 hentry
    cases hentry
    exact ⟨rfl, rfl, List.fst_mem_of_mem_zipIdx hmem, rfl⟩

theorem Trail.of_branch {E : DfsEnv σ} (hE : E.Sound) {k idx : Nat} {path : Path} {t : Turn σ}
    {A : Answers} {s : σ} {c : Channels} {e : RngEntry} {entries : List PrefixEntry}
    {pe : PrefixEntry} (h : Trail E path k t A)
    (hrun : E.turn.run (channelsOf path) = .ok (.finished s, c))
    (hidx : nextBranchIdx c.log k = some idx) (he : c.log[idx]? = some e)
    (hent : branchEntries E.cfg c.log idx e = .ok entries) (hpe : pe ∈ entries) :
    ∃ call next A', t.settle A = (.draw call next, A') ∧
      ∃ o ∈ call.draw.offers E.cfg.aggregateDamageRolls,
        pe = branchEntry call.draw.event (forcedCount (forcedOf path) call.draw.event)
          (o.1, some o.2) := by
  obtain ⟨r, c', vs, hrun', -, -, hstep⟩ := h.step hE
  obtain ⟨rfl, rfl⟩ := Prod.mk.inj (Except.ok.inj (hrun.symm.trans hrun'))
  have hset := (h.config_over hE).settle A
  generalize hq : t.settle A = q at hstep hset
  obtain ⟨t₂, A₂⟩ := q
  cases t₂ with
  | done s =>
    rw [hstep.2] at hidx
    cases hidx
  | ask event options next => cases hstep
  | draw call next =>
    rcases hstep with ⟨event, options, hpause⟩ | ⟨s', idx', -, hidx', he', hocc⟩
    · cases hpause
    obtain rfl := Option.some.inj (hidx.symm.trans hidx')
    obtain rfl := Option.some.inj (he.symm.trans he')
    have hp := hset.1.proper (Turn.settle_draw hq)
    obtain ⟨entries', hent', hperm⟩ := branchEntries_spec hE.1 hp (.inl rfl) c.log idx
    obtain rfl := Except.ok.inj (hent.symm.trans hent')
    obtain ⟨o, ho, rfl⟩ := List.mem_map.1 (hperm.mem_iff.1 hpe)
    exact ⟨call, next, A₂, rfl, o, ho, by rw [hocc]⟩

theorem DfsCall.trail {E : DfsEnv σ} (hE : E.Sound) {room k : Nat} {path : Path}
    (h : DfsCall E room path k) : ∃ t A, Trail E path k t A := by
  induction h with
  | root => exact ⟨_, _, .root E⟩
  | pause _ _ hent hpe ih =>
    obtain ⟨t, A, ht⟩ := ih
    exact ⟨t, _, ht.answer (pauseEntries_spec hent _ hpe).1⟩
  | branch _ hrun hidx he hent hpe ih =>
    obtain ⟨t, A, ht⟩ := ih
    obtain ⟨call, next, A', hs, o, ho, rfl⟩ := ht.of_branch hE hrun hidx he hent hpe
    exact ⟨_, _, ht.branch hs ho rfl⟩

inductive Turn.Reach : Turn σ → Channels → Turn σ → Channels → Prop
  | refl (t : Turn σ) (c : Channels) : Reach t c t c
  | draw {call : ResolverCall} {next : Int → Turn σ} {c c' c'' : Channels} {v : Int} {t : Turn σ}
      (hres : call.draw.resolve c = .ok (v, c')) (h : Reach (next (call.draw.outcome v)) c' t c'') :
      Reach (.draw call next) c t c''
  | ask {event : RngEvent} {options : List Int} {next : OracleAnswer → Turn σ} {c c'' : Channels}
      {a : OracleAnswer} {rest : List OracleAnswer} {t : Turn σ}
      (hA : c.answers event = a :: rest)
      (h : Reach (next a) (c.answer event a rest options) t c'') :
      Reach (.ask event options next) c t c''

theorem Draw.resolve_log {d : Draw} {c c' : Channels} {v : Int} (h : d.resolve c = .ok (v, c')) :
    ∀ e ∈ c'.log, e ∈ c.log ∨ e = d.logEntry v := by
  intro e he
  unfold Draw.resolve at h
  split at h
  · rename_i w hsat
    cases h
    split at he
    · simpa [Channels.push, Draw.logEntry, hsat] using he
    · exact .inl he
  · rename_i hsat
    split at h
    · split at h
      · cases h
        simpa [Channels.push, Channels.bumpOccurrence, Draw.logEntry, hsat] using he
      · cases h
    · cases h
      simpa [Channels.push, Channels.bumpOccurrence, Draw.logEntry, hsat] using he

/-- A run in the middle of a replay: the injection holds exactly the outcomes still to be taken,
and they lead to the configuration `q`. -/
structure Turn.Replay (aggregate : Bool) (t : Turn σ) (c : Channels) (vs : Forced)
    (q : Turn σ × Answers) : Prop where
  after : t.after aggregate vs c.answers = some q
  injection : ∃ done : CategoryBInjection, done.all (·.consumed) ∧
    c.injection = done ++ injectionOf c.occ vs

def settlement (q : Turn σ × Answers) : Turn σ × Answers := q.1.settle q.2

namespace Turn.Replay

variable {aggregate : Bool} {c c' : Channels} {vs : Forced} {q : Turn σ × Answers}

theorem of_trail {E : DfsEnv σ} {path : Path} {k : Nat} {t : Turn σ} {A : Answers}
    (h : Trail E path k t A) :
    E.turn.Replay E.cfg.aggregateDamageRolls (channelsOf path) (forcedOf path) (t, A) :=
  ⟨h.after, [], rfl, h.keys⟩

theorem of_consumed {t : Turn σ} (h : c.injection.all (·.consumed)) :
    t.Replay aggregate c [] (t, c.answers) :=
  ⟨Turn.after_nil _ _ _, c.injection, h, by simp [injectionOf]⟩

inductive Taking (aggregate : Bool) (d : Draw) (v : Int) : Forced → Forced → Prop
  | saturated (vs : Forced) (hsat : d.saturated = some v) : Taking aggregate d v vs vs
  | forced (vs : Forced) (hsat : d.saturated = none) (hv : v ∈ d.offered aggregate) :
      Taking aggregate d v ((d.event, v) :: vs) vs
  | free (hsat : d.saturated = none) (hv : v = d.default) : Taking aggregate d v [] []

theorem Taking.settles {d : Draw} {v : Int} {vs' : Forced} (h : Taking aggregate d v vs vs') :
    d.Settles aggregate v := by
  cases h with
  | saturated _ hsat => simp [Draw.Settles, hsat]
  | forced _ hsat hv => simp [Draw.Settles, hsat, Draw.Taken, hv]
  | free hsat hv => simp [Draw.Settles, hsat, Draw.Taken, hv]

theorem draw {call : ResolverCall} {next : Int → Turn σ} {v : Int}
    (h : (Turn.draw call next).Replay aggregate c vs q) (hs : call.Sound aggregate)
    (hres : call.draw.resolve c = .ok (v, c')) :
    ∃ vs' q', (next (call.draw.outcome v)).Replay aggregate c' vs' q' ∧
      Taking aggregate call.draw v vs vs' ∧ (∃ ws, c.Ext c' ws) ∧ c'.answers = c.answers ∧
      (vs ≠ [] ∨ call.draw.saturated ≠ none → settlement q' = settlement q) := by
  obtain ⟨ha, done, hdone, hinj⟩ := h
  cases hsat : call.draw.saturated with
  | some w =>
    obtain ⟨c₁, hres₁, hinj₁, hans₁, hext₁⟩ := Draw.resolve_saturated (c := c) hsat
    obtain ⟨rfl, rfl⟩ := Prod.mk.inj (Except.ok.inj (hres.symm.trans hres₁))
    have hocc : c'.occ = c.occ := funext fun e => by simpa [forcedCount] using hext₁.occ e
    have hinj' : c'.injection = done ++ injectionOf c'.occ vs := by rw [hinj₁, hinj, hocc]
    cases vs with
    | nil =>
      obtain rfl : (Turn.draw call next, c.answers) = q := by simpa using ha
      refine ⟨[], (next (call.draw.outcome v), c'.answers),
        ⟨Turn.after_nil _ _ _, done, hdone, hinj'⟩, .saturated _ hsat, ⟨[], hext₁⟩, hans₁,
        fun _ => ?_⟩
      simp only [settlement, hans₁, Turn.settle, hsat]
    | cons f vs =>
      obtain ⟨e, u⟩ := f
      simp only [Turn.after, hsat] at ha
      exact ⟨(e, u) :: vs, q, ⟨by rw [hans₁]; exact ha, done, hdone, hinj'⟩, .saturated _ hsat,
        ⟨[], hext₁⟩, hans₁, fun _ => rfl⟩
  | none =>
    have hp := hs.proper hsat
    cases vs with
    | nil =>
      have hall : c.injection.all (·.consumed) := by
        rw [hinj]
        simpa [injectionOf] using hdone
      obtain ⟨c₁, hres₁, hinj₁, hans₁, _, hext₁⟩ :=
        Draw.resolve_free hp hsat (hs.separated hsat _ (.inl rfl)) hall
      obtain ⟨rfl, rfl⟩ := Prod.mk.inj (Except.ok.inj (hres.symm.trans hres₁))
      exact ⟨[], _, of_consumed (by rw [hinj₁]; exact hall), .free hsat rfl, ⟨_, hext₁⟩, hans₁,
        by simp⟩
    | cons f vs =>
      obtain ⟨e, w⟩ := f
      simp only [Turn.after, hsat] at ha
      split at ha
      · rename_i hmem
        obtain ⟨rfl, hv⟩ := hmem
        obtain ⟨c₁, done₁, hres₁, hdone₁, hinj₁, hans₁, hocc₁, hext₁⟩ :=
          Draw.resolve_forced hp hsat hv (hs.separated hsat w (.inr hv)) hdone
            (by rw [hinj]; rfl)
        obtain ⟨rfl, rfl⟩ := Prod.mk.inj (Except.ok.inj (hres.symm.trans hres₁))
        exact ⟨vs, q, ⟨by rw [hans₁]; exact ha, done₁, hdone₁, by rw [hinj₁, hocc₁]⟩,
          .forced _ hsat hv, ⟨_, hext₁⟩, hans₁, fun _ => rfl⟩
      · cases ha

theorem ask {event : RngEvent} {options : List Int} {next : OracleAnswer → Turn σ}
    {a : OracleAnswer} {rest : List OracleAnswer}
    (h : (Turn.ask event options next).Replay aggregate c vs q)
    (hA : c.answers event = a :: rest) :
    ∃ q', (next a).Replay aggregate (c.answer event a rest options) vs q' ∧
      settlement q' = settlement q := by
  obtain ⟨ha, done, hdone, hinj⟩ := h
  cases vs with
  | nil =>
    obtain rfl : (Turn.ask event options next, c.answers) = q := by simpa using ha
    refine ⟨(next a, Function.update c.answers event rest),
      ⟨Turn.after_nil _ _ _, done, hdone, hinj⟩, ?_⟩
    simp only [settlement, Turn.settle, hA]
  | cons f vs =>
    simp only [Turn.after, hA] at ha
    exact ⟨q, ⟨ha, done, hdone, hinj⟩, rfl⟩

end Turn.Replay

def Channels.Counted (c : Channels) : Prop :=
  ∀ event, c.occ event = occOfBranch c.log c.log.length event

theorem Channels.Ext.counted {c c' : Channels} {vs : Forced} (h : c.Ext c' vs)
    (hc : c.Counted) : c'.Counted := by
  intro event
  obtain ⟨L, hL, -, hcount⟩ := h.log
  have hc : c.occ event = bumpedCount c.log event := by
    rw [hc event, occOfBranch, List.take_length]
    rfl
  rw [h.occ, hc, occOfBranch, List.take_length, hL, ← hcount]
  exact (bumpedCount_append _ _ _).symm

theorem Turn.Reach.counted {aggregate : Bool} {t t' : Turn σ} {c c' : Channels}
    (h : t.Reach c t' c') (ht : t.Over (·.Sound aggregate) CatA)
    {vs : Forced} {q : Turn σ × Answers} (hr : t.Replay aggregate c vs q) (hc : c.Counted) :
    c'.Counted := by
  induction h generalizing vs q with
  | refl => exact hc
  | draw hres _ ih =>
    obtain ⟨vs', q', hr', -, ⟨ws, hext⟩, -⟩ := hr.draw ht.1 hres
    exact ih (ht.2 _) hr' (hext.counted hc)
  | ask hA _ ih =>
    obtain ⟨q', hr', -⟩ := hr.ask hA
    exact ih (ht.2 _) hr' ((Channels.ext_answer ht.1).counted hc)

theorem Turn.Reach.log_resolves {aggregate : Bool} {t t' : Turn σ} {c c' : Channels}
    (h : t.Reach c t' c') (ht : t.Over (·.Sound aggregate) CatA) {vs : Forced}
    {q : Turn σ × Answers} (hr : t.Replay aggregate c vs q) :
    ∀ e ∈ c'.log, e ∈ c.log ∨ e.event.isCatB = false ∨
      ∃ call v, t.Resolves aggregate call v ∧ e = call.draw.logEntry v := by
  induction h generalizing vs q with
  | refl => exact fun e he => .inl he
  | draw hres _ ih =>
    intro e he
    obtain ⟨vs', q', hr', htake, -⟩ := hr.draw ht.1 hres
    have hv := htake.settles
    rcases ih (ht.2 _) hr' e he with he | he | ⟨call', w, hw, he⟩
    · rcases Draw.resolve_log hres e he with he | he
      · exact .inl he
      · exact .inr (.inr ⟨_, _, .here hv, he⟩)
    · exact .inr (.inl he)
    · exact .inr (.inr ⟨call', w, .later hv hw, he⟩)
  | @ask event options next c c'' a rest t hA _ ih =>
    intro e he
    obtain ⟨q', hr', -⟩ := hr.ask hA
    rcases ih (ht.2 _) hr' e he with he | he | ⟨call', w, hw, he⟩
    · rcases List.mem_append.1 he with he | he
      · exact .inl he
      · rw [List.mem_singleton] at he
        subst he
        exact .inr (.inl ht.1)
    · exact .inr (.inl he)
    · exact .inr (.inr ⟨call', w, .answered hw, he⟩)

end NuzlockeSolver
