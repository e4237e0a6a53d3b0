import NuzlockeSolver.Oracle.Distribution
import NuzlockeSolver.Oracle.Paths

/-!
# The step computes the law of the turn

The search is followed on configurations of the turn: a call of `dfs` at a prefix contributes what
is left of the law at the configuration the prefix leads to. A preloaded answer is exact where the
questions are settled, and there it is also one that the run it ends up in offers.
-/

namespace NuzlockeSolver

open WeightedList

variable {σ : Type}

namespace Turn

def outlook : Turn σ → Answers → TurnResult σ
  | done s, _ => .finished s
  | draw call next, A =>
    match call.draw.saturated with
    | some w => (next (call.draw.outcome w)).outlook A
    | none => (next (call.draw.outcome call.draw.default)).outlook A
  | ask event options next, A =>
    match A event with
    | [] => .paused event options
    | a :: left => (next a).outlook (Function.update A event left)

/-- The configurations an enumeration of the turn explores, and how many answers and forced
outcomes they take. -/
inductive Explored (aggregate : Bool) (t₀ : Turn σ) : Nat → Turn σ → Answers → Prop
  | root : Explored aggregate t₀ 0 t₀ (fun _ => [])
  | pause {n : Nat} {t : Turn σ} {A : Answers} {event : RngEvent} {options : List Int}
      {a : OracleAnswer} (h : Explored aggregate t₀ n t A)
      (hout : t.outlook A = .paused event options)
      (ha : a ∈ (questionLaw event options).map (·.1)) :
      Explored aggregate t₀ (n + 1) t (A.add event a)
  | branch {n : Nat} {t : Turn σ} {A A' : Answers} {s : σ} {call : ResolverCall}
      {next : Int → Turn σ} {v : Int} (h : Explored aggregate t₀ n t A)
      (hout : t.outlook A = .finished s) (hs : t.settle A = (draw call next, A'))
      (hv : v ∈ call.draw.offered aggregate) :
      Explored aggregate t₀ (n + 1) (next (call.draw.outcome v)) A'

/-- Where the enumeration meets an open question, every continuation of the turn asks its next
question of that event with the same weighted options. -/
def QuestionsSettled (aggregate : Bool) (t₀ : Turn σ) : Prop :=
  ∀ n t A event options, Explored aggregate t₀ n t A → t.outlook A = .paused event options →
    t.NextOffers aggregate event (questionLaw event options) A

/-- No prefix of the enumeration outgrows the depth cap. -/
def WithinDepth (aggregate : Bool) (t₀ : Turn σ) : Prop :=
  ∀ n t A, Explored aggregate t₀ n t A → n ≤ maxPrefixDepth

def AnswersOffered (t : Turn σ) (c : Channels) : Prop :=
  ∀ event options next a rest c', t.Reach c (ask event options next) c' →
    c'.answers event = a :: rest → a.chosen ∈ options

/-- Every queued answer that a run along the forced outcomes consumes, or any continuation of it,
is offered by the question it meets. -/
def Honest (aggregate : Bool) : Turn σ → Forced → Answers → Prop
  | done _, _, _ => True
  | draw call next, vs, A =>
    match call.draw.saturated with
    | some w => (next (call.draw.outcome w)).Honest aggregate vs A
    | none =>
      match vs with
      | [] => ∀ v ∈ call.draw.offered aggregate,
          (next (call.draw.outcome v)).Honest aggregate [] A
      | f :: rest => (next (call.draw.outcome f.2)).Honest aggregate rest A
  | ask event options next, vs, A =>
    match A event with
    | [] => ∀ a ∈ (questionLaw event options).map (·.1), (next a).Honest aggregate [] A
    | a :: left => a ∈ (questionLaw event options).map (·.1) ∧
        (next a).Honest aggregate vs (Function.update A event left)

variable {aggregate : Bool}

theorem honest_saturated {call : ResolverCall} {next : Int → Turn σ} {vs : Forced} {A : Answers}
    {w : Int} (hsat : call.draw.saturated = some w) :
    (draw call next).Honest aggregate vs A ↔
      (next (call.draw.outcome w)).Honest aggregate vs A := by
  cases vs <;> simp only [Honest, hsat]

theorem honest_nil (t : Turn σ) : t.Honest aggregate [] (fun _ => []) := by
  induction t with
  | done s => trivial
  | draw call next ih =>
    cases hsat : call.draw.saturated with
    | some w =>
      simp only [Honest, hsat]
      exact ih _
    | none =>
      simp only [Honest, hsat]
      exact fun v _ => ih _
  | ask event options next ih => exact fun a _ => ih a

theorem Honest.add {t t' : Turn σ} {vs : Forced} {A A' : Answers} {event : RngEvent}
    {W : List (OracleAnswer × Rat)} {a : OracleAnswer} (h : t.Honest aggregate vs A)
    (ht : t.after aggregate vs A = some (t', A')) (hW : t'.NextOffers aggregate event W A')
    (ha : a ∈ W.map (·.1)) : t.Honest aggregate vs (A.add event a) := by
  induction t generalizing vs A t' A' with
  | done s => trivial
  | draw call next ih =>
    cases hsat : call.draw.saturated with
    | some w =>
      rw [honest_saturated hsat] at h ⊢
      cases vs with
      | nil =>
        obtain ⟨rfl, rfl⟩ := Prod.mk.inj (Option.some.inj ((after_nil _ _ _).symm.trans ht))
        simp only [NextOffers, hsat] at hW
        exact ih _ h (after_nil _ _ _) hW
      | cons f vs =>
        obtain ⟨e, v⟩ := f
        simp only [after, hsat] at ht
        exact ih _ h ht hW
    | none =>
      cases vs with
      | nil =>
        obtain ⟨rfl, rfl⟩ := Prod.mk.inj (Option.some.inj ((after_nil _ _ _).symm.trans ht))
        simp only [Honest, hsat] at h ⊢
        simp only [NextOffers, hsat] at hW
        exact fun v hv => ih _ (h v hv) (after_nil _ _ _) (hW v hv)
      | cons f vs =>
        obtain ⟨e, v⟩ := f
        simp only [Honest, hsat] at h ⊢
        simp only [after, hsat] at ht
        split at ht
        · exact ih _ h ht hW
        · cases ht
  | ask event' options next ih =>
    cases hA : A event' with
    | nil =>
      cases vs with
      | nil =>
        obtain ⟨rfl, rfl⟩ := Prod.mk.inj (Option.some.inj ((after_nil _ _ _).symm.trans ht))
        simp only [Honest, hA] at h
        simp only [NextOffers, hA] at hW
        by_cases he : event' = event
        · rw [if_pos he] at hW
          have hmem : a ∈ (questionLaw event' options).map (·.1) :=
            (hW.map _).mem_iff.2 ha
          obtain ⟨hadd, hupd⟩ := (add_of_empty a hA).1 he
          simp only [Honest, hadd, hupd]
          exact ⟨hmem, h a hmem⟩
        · rw [if_neg he] at hW
          simp only [Honest, (add_of_empty a hA).2 he]
          exact fun b hb => ih _ (h b hb) (after_nil _ _ _) (hW b hb)
      | cons f vs => simp [after, hA] at ht
    | cons b left =>
      simp only [Honest, hA] at h
      obtain ⟨hadd, hupd⟩ := Answers.add_update event a hA
      simp only [Honest, hadd, hupd]
      refine ⟨h.1, ?_⟩
      cases vs with
      | nil =>
        obtain ⟨rfl, rfl⟩ := Prod.mk.inj (Option.some.inj ((after_nil _ _ _).symm.trans ht))
        simp only [NextOffers, hA] at hW
        exact ih _ h.2 (after_nil _ _ _) hW
      | cons f vs =>
        simp only [after, hA] at ht
        exact ih _ h.2 ht hW

theorem Honest.force {t t' : Turn σ} {vs : Forced} {A A' A'' : Answers} {call : ResolverCall}
    {next : Int → Turn σ} {v : Int} (h : t.Honest aggregate vs A)
    (ht : t.after aggregate vs A = some (t', A')) (hs : t'.settle A' = (draw call next, A''))
    (hv : v ∈ call.draw.offered aggregate) :
    t.Honest aggregate (vs ++ [(call.draw.event, v)]) A := by
  induction t generalizing vs A t' A' with
  | done s => trivial
  | draw call' next' ih =>
    cases hsat : call'.draw.saturated with
    | some w =>
      rw [honest_saturated hsat] at h ⊢
      cases vs with
      | nil =>
        obtain ⟨rfl, rfl⟩ := Prod.mk.inj (Option.some.inj ((after_nil _ _ _).symm.trans ht))
        simp only [settle, hsat] at hs
        exact ih _ h (after_nil _ _ _) hs
      | cons f vs =>
        obtain ⟨e, u⟩ := f
        simp only [after, hsat] at ht
        exact ih _ h ht hs
    | none =>
      cases vs with
      | nil =>
        obtain ⟨rfl, rfl⟩ := Prod.mk.inj (Option.some.inj ((after_nil _ _ _).symm.trans ht))
        simp only [settle, hsat] at hs
        obtain ⟨⟨rfl, rfl⟩, rfl⟩ := hs
        simp only [Honest, hsat] at h
        simp only [List.nil_append, Honest, hsat]
        exact h v hv
      | cons f vs =>
        obtain ⟨e, u⟩ := f
        simp only [after, hsat] at ht
        simp only [Honest, hsat] at h
        simp only [List.cons_append, Honest, hsat]
        split at ht
        · exact ih _ h ht hs
        · cases ht
  | ask event options next' ih =>
    cases hA : A event with
    | nil =>
      cases vs with
      | nil =>
        obtain ⟨rfl, rfl⟩ := Prod.mk.inj (Option.some.inj ((after_nil _ _ _).symm.trans ht))
        simp [settle, hA] at hs
      | cons f vs => simp [after, hA] at ht
    | cons b left =>
      simp only [Honest, hA] at h ⊢
      refine ⟨h.1, ?_⟩
      cases vs with
      | nil =>
        obtain ⟨rfl, rfl⟩ := Prod.mk.inj (Option.some.inj ((after_nil _ _ _).symm.trans ht))
        simp only [settle, hA] at hs
        exact ih _ h.2 (after_nil _ _ _) hs
      | cons f vs =>
        simp only [after, hA] at ht
        exact ih _ h.2 ht hs

theorem Honest.reach {t t' : Turn σ} {c c' : Channels} {vs : Forced} {q : Turn σ × Answers}
    (hreach : t.Reach c t' c') (ht : t.Over (·.Sound aggregate) CatA)
    (hr : t.Replay aggregate c vs q) (hq : ∃ s A, settlement q = (done s, A))
    (h : t.Honest aggregate vs c.answers) : ∃ vs', t'.Honest aggregate vs' c'.answers := by
  induction hreach generalizing vs q with
  | refl => exact ⟨vs, h⟩
  | @draw call next c c' c'' v t hres _ ih =>
    obtain ⟨vs', q', hr', htake, -, hans, hsettled⟩ := hr.draw ht.1 hres
    rw [← hans] at h
    cases htake with
    | saturated _ hsat =>
      rw [honest_saturated hsat] at h
      exact ih (ht.2 _) hr' (by rw [hsettled (.inr (by simp [hsat]))]; exact hq) h
    | forced _ hsat hv =>
      simp only [Honest, hsat] at h
      exact ih (ht.2 _) hr' (by rw [hsettled (.inl (by simp))]; exact hq) h
    | free hsat hv =>
      obtain ⟨s, A, hq⟩ := hq
      obtain rfl : (Turn.draw call next, c.answers) = q := by simpa using hr.after
      simp [settlement, settle, hsat] at hq
  | ask hA _ ih =>
    obtain ⟨q', hr', hsettled⟩ := hr.ask hA
    simp only [Honest, hA] at h
    exact ih (ht.2 _) hr' (by rw [hsettled]; exact hq) h.2

theorem run_outlook {t : Turn σ} {c : Channels} (ht : t.Over (·.Sound aggregate) CatA)
    (hall : c.injection.all (·.consumed)) : ∃ c', t.run c = .ok (t.outlook c.answers, c') := by
  induction t generalizing c with
  | done s => exact ⟨c, rfl⟩
  | draw call next ih =>
    cases hsat : call.draw.saturated with
    | some w =>
      obtain ⟨c₁, hres, hinj, hans, -⟩ := Draw.resolve_saturated (c := c) hsat
      obtain ⟨c', hrun⟩ := ih (call.draw.outcome w) (ht.2 _) (c := c₁) (by rw [hinj]; exact hall)
      refine ⟨c', ?_⟩
      simp only [outlook, hsat]
      rw [run, hres, ← hans]
      exact hrun
    | none =>
      obtain ⟨c₁, hres, hinj, hans, -⟩ := Draw.resolve_free (ht.1.proper hsat) hsat
        (ht.1.separated hsat _ (.inl rfl)) hall
      obtain ⟨c', hrun⟩ := ih (call.draw.outcome call.draw.default) (ht.2 _) (c := c₁)
        (by rw [hinj]; exact hall)
      refine ⟨c', ?_⟩
      simp only [outlook, hsat]
      rw [run, hres, ← hans]
      exact hrun
  | ask event options next ih =>
    cases hA : c.answers event with
    | nil => exact ⟨c, by simp only [run, outlook, hA]⟩
    | cons a left =>
      obtain ⟨c', hrun⟩ := ih a (ht.2 _) (c := c.answer event a left options) hall
      refine ⟨c', ?_⟩
      simp only [run, outlook, hA]
      exact hrun

theorem outlook_over {P : ResolverCall → Prop} {Q : RngEvent → List Int → Prop} {t : Turn σ}
    {A : Answers} {event : RngEvent} {options : List Int} (ht : t.Over P Q)
    (h : t.outlook A = .paused event options) : Q event options := by
  induction t generalizing A with
  | done s => cases h
  | draw call next ih =>
    cases hsat : call.draw.saturated with
    | some w =>
      simp only [outlook, hsat] at h
      exact ih _ (ht.2 _) h
    | none =>
      simp only [outlook, hsat] at h
      exact ih _ (ht.2 _) h
  | ask event' options' next ih =>
    cases hA : A event' with
    | nil =>
      simp only [outlook, hA] at h
      cases h
      exact ht.1
    | cons a left =>
      simp only [outlook, hA] at h
      exact ih _ (ht.2 _) h

end Turn

theorem PrefixEntry.override_chosen (pe : PrefixEntry) : pe.override.chosen = pe.value := by
  unfold PrefixEntry.override
  split
  · show pe.value / 10 * 10 + pe.value % 10 = pe.value
    omega
  · rfl
  · rfl

theorem chosen_mem_of_questionLaw {event : RngEvent} {options : List Int} {a : OracleAnswer}
    (h : a ∈ (questionLaw event options).map (·.1)) : a.chosen ∈ options := by
  unfold questionLaw at h
  split at h
  · rename_i entries hent
    rw [List.map_map] at h
    obtain ⟨pe, hpe, rfl⟩ := List.mem_map.1 h
    rw [Function.comp_apply, PrefixEntry.override_chosen]
    exact (pauseEntries_spec hent pe hpe).2.2.1
  · simp at h

theorem Turn.Honest.answersOffered {aggregate : Bool} {t : Turn σ} {c : Channels} {vs : Forced}
    {q : Turn σ × Answers} (h : t.Honest aggregate vs c.answers)
    (ht : t.Over (·.Sound aggregate) CatA) (hr : t.Replay aggregate c vs q)
    (hq : ∃ s A, settlement q = (.done s, A)) : t.AnswersOffered c := by
  intro event options next a rest c' hreach hA
  obtain ⟨vs', hh⟩ := Turn.Honest.reach hreach ht hr hq h
  simp only [Turn.Honest, hA] at hh
  exact chosen_mem_of_questionLaw hh.1

/-- The total of a function over the emitted leaves, weighted by their probabilities. -/
def total (leaves : List (Leaf σ)) (f : σ → Rat) : Rat :=
  (leaves.map fun leaf => leaf.prob.getD 0 * f leaf.child).sum

theorem total_append (l m : List (Leaf σ)) (f : σ → Rat) :
    total (l ++ m) f = total l f + total m f := by
  simp [total]

/-- If every round returns and, unless it stops the search, emits the right total, so does the
loop. -/
theorem forEach_total_eq {α : Type} {body : α → DfsState σ → Except Fault (DfsState σ)}
    {good : Leaf σ → Prop} {value : α → (σ → Rat) → Rat} {l : List α}
    (hbody : ∀ a ∈ l, ∀ S : DfsState σ, S.stopped = false → ∃ S', body a S = .ok S' ∧
      (∀ leaf ∈ S'.emitted, leaf ∈ S.emitted ∨ good leaf) ∧
      (S'.stopped = false → ∀ f, total S'.emitted f = total S.emitted f + value a f))
    {S : DfsState σ} (hS : S.stopped = false) :
    ∃ S', forEach body l S = .ok S' ∧ (∀ leaf ∈ S'.emitted, leaf ∈ S.emitted ∨ good leaf) ∧
      (S'.stopped = false → ∀ f,
        total S'.emitted f = total S.emitted f + (l.map fun a => value a f).sum) := by
  induction l generalizing S with
  | nil => exact ⟨S, rfl, fun leaf h => .inl h, fun _ f => by simp⟩
  | cons a l ih =>
    obtain ⟨S₁, h₁, hgood₁, htotal₁⟩ := hbody a List.mem_cons_self S hS
    cases hstop : S₁.stopped with
    | true =>
      refine ⟨S₁, ?_, hgood₁, fun h => by rw [hstop] at h; cases h⟩
      rw [forEach, h₁, ok_bind, if_pos hstop]
    | false =>
      obtain ⟨S', h', hgood, htotal⟩ := ih (fun b hb => hbody b (List.mem_cons_of_mem _ hb)) hstop
      refine ⟨S', ?_, fun leaf hleaf => ?_, fun hS' f => ?_⟩
      · rw [forEach, h₁, ok_bind, if_neg (by simp [hstop]), h']
      · exact (hgood leaf hleaf).elim (hgood₁ leaf) .inr
      · rw [htotal hS' f, htotal₁ hstop f, List.map_cons, List.sum_cons, add_assoc]

section Search

variable {E : DfsEnv σ}

structure DfsEnv.Modeled (E : DfsEnv σ) : Prop where
  exact : E.cfg.collapse = .none
  turn : E.turn.Over (·.Sound E.cfg.aggregateDamageRolls) Posed

theorem DfsEnv.Modeled.sound (h : E.Modeled) : E.Sound :=
  ⟨h.exact, h.turn.mono fun _ _ hposed => hposed.catA⟩

def DfsEnv.GoodLeaf (E : DfsEnv σ) (leaf : Leaf σ) : Prop :=
  leaf.aiAction = E.oppAction ∧ E.turn.AnswersOffered (channelsOf leaf.path)

structure Visit (E : DfsEnv σ) (room : Nat) (path : Path) (k : Nat) (t : Turn σ) (A : Answers)
    (q : Rat) : Prop where
  trail : Trail E path k t A
  explored : ∃ n, n + room = maxPrefixDepth + 1 ∧
    Turn.Explored E.cfg.aggregateDamageRolls E.turn n t A
  honest : E.turn.Honest E.cfg.aggregateDamageRolls (forcedOf path) (buildOverrides path)
  prob : prefixProb path = some q

namespace Visit

variable {room k : Nat} {path : Path} {t : Turn σ} {A : Answers} {q : Rat}

theorem root (E : DfsEnv σ) : Visit E (maxPrefixDepth + 1) [] 0 E.turn (fun _ => []) 1 where
  trail := .root E
  explored := ⟨0, by simp, .root⟩
  honest := Turn.honest_nil _
  prob := rfl

theorem run (hE : E.Modeled) (h : Visit E room path k t A q) :
    ∃ c, E.turn.run (channelsOf path) = .ok (t.outlook A, c) ∧
      c.injection.all (·.consumed) := by
  obtain ⟨c, hrun, hall, hA, -⟩ := h.trail.replay hE.sound
  obtain ⟨c', hrun'⟩ := Turn.run_outlook (h.trail.config_over hE.sound) hall
  obtain ⟨r, c'', vs, hrun'', hall'', -⟩ := h.trail.step hE.sound
  obtain ⟨-, rfl⟩ := Prod.mk.inj (Except.ok.inj ((hrun.trans hrun').symm.trans hrun''))
  exact ⟨c', by rw [hrun, hrun', hA], hall''⟩

theorem answer (hq : E.turn.QuestionsSettled E.cfg.aggregateDamageRolls)
    (h : Visit E (room + 1) path k t A q) {event : RngEvent} {options : List Int}
    {entries : List PrefixEntry} {pe : PrefixEntry} (hout : t.outlook A = .paused event options)
    (hent : pauseEntries event options = .ok entries) (hpe : pe ∈ entries) :
    Visit E room (path ++ [pe]) k t (A.add event pe.override) (q * pe.prob.getD 0) := by
  obtain ⟨n, hn, hexp⟩ := h.explored
  obtain ⟨hchan, hev, -, hsome⟩ := pauseEntries_spec hent pe hpe
  obtain ⟨p, hp⟩ := Option.isSome_iff_exists.1 hsome
  have hmem : pe.override ∈ (questionLaw event options).map (·.1) := by
    rw [questionLaw, hent]
    simpa using ⟨pe, hpe, rfl⟩
  have hne : ¬ pe.channel = .catB := by rw [hchan]; simp
  refine ⟨hev ▸ h.trail.answer hchan, ⟨n + 1, by omega, hexp.pause hout hmem⟩, ?_, ?_⟩
  · rw [Trail.forcedOf_append, if_neg hne, Trail.buildOverrides_append, if_pos hchan, hev]
    exact h.honest.add h.trail.after (hq _ _ _ _ _ hexp hout) hmem
  · rw [prefixProb_append path pe h.prob hp, hp, Option.getD_some]

theorem branch (h : Visit E (room + 1) path k t A q) {s : σ} {call : ResolverCall}
    {next : Int → Turn σ} {A' : Answers} (hout : t.outlook A = .finished s)
    (hs : t.settle A = (.draw call next, A')) {o : Int × Rat}
    (ho : o ∈ call.draw.offers E.cfg.aggregateDamageRolls) {occ : Nat}
    (hocc : occ = forcedCount (forcedOf path) call.draw.event) :
    Visit E room (path ++ [branchEntry call.draw.event occ (o.1, some o.2)]) (k + 1)
      (next (call.draw.outcome o.1)) A' (q * o.2) := by
  obtain ⟨n, hn, hexp⟩ := h.explored
  have hoff := List.mem_map_of_mem (f := (·.1)) ho
  have hforced := Trail.forcedOf_append path (branchEntry call.draw.event occ (o.1, some o.2))
  rw [if_pos (by rfl)] at hforced
  refine ⟨h.trail.branch hs ho hocc, ⟨n + 1, by omega, hexp.branch hout hs hoff⟩, ?_,
    prefixProb_append path _ h.prob rfl⟩
  rw [hforced, Trail.buildOverrides_append, if_neg (by simp [branchEntry])]
  exact h.honest.force h.trail.after hs hoff

end Visit

/-- One call of the search: it returns, its leaves come from runs that are offered their answers,
and unless it is stopped it contributes what is left of the law. -/
theorem dfs_total (hE : E.Modeled) (hq : E.turn.QuestionsSettled E.cfg.aggregateDamageRolls)
    (hdepth : E.turn.WithinDepth E.cfg.aggregateDamageRolls) {room k : Nat} {path : Path}
    {t : Turn σ} {A : Answers} {q : Rat} (h : Visit E room path k t A q) {S : DfsState σ}
    (hS : S.stopped = false) :
    ∃ S', E.dfs room path k S = .ok S' ∧
      (∀ leaf ∈ S'.emitted, leaf ∈ S.emitted ∨ E.GoodLeaf leaf) ∧
      (S'.stopped = false → ∀ f, total S'.emitted f = total S.emitted f +
        q * E.oppProb * t.mean E.cfg.aggregateDamageRolls A f) := by
  induction room generalizing k path t A q S with
  | zero =>
    obtain ⟨n, hn, hexp⟩ := h.explored
    have := hdepth n t A hexp
    omega
  | succ room ih =>
    obtain ⟨c, hrun, hall⟩ := h.run hE
    have hover := h.trail.config_over hE.sound
    generalize hout : t.outlook A = r at hrun
    cases r with
    | paused event options =>
      obtain ⟨n, hn, hexp⟩ := h.explored
      have hposed := Turn.outlook_over (hE.turn.after h.trail.after) hout
      obtain ⟨entries, hent⟩ := hposed.pauseEntries_ok
      have hmass := mass_questionLaw hposed hent
      have hoffers := hq _ _ _ _ _ hexp hout
      obtain ⟨S', hloop, hgood, htotal⟩ := forEach_total_eq
        (fun pe hpe S₁ hS₁ => ih (h.answer hq hout hent hpe) hS₁) (S := S.countExec) hS
      refine ⟨S', by rw [dfs_paused hS hrun hall, hent, ok_bind, hloop], hgood, fun hS' f => ?_⟩
      rw [htotal hS' f, Turn.mean_preload hmass hoffers, questionLaw, hent]
      simp only [avg, List.map_map]
      rw [← List.sum_map_mul_left]
      refine congrArg (total S.emitted f + List.sum ·) (List.map_congr_left fun pe _ => ?_)
      simp only [Function.comp_apply]
      ring
    | finished s =>
      have hmean := @Turn.mean_settle σ E.cfg.aggregateDamageRolls t A
      obtain ⟨r, c', vs, hrun', -, -, hstep⟩ := h.trail.step hE.sound
      obtain ⟨rfl, rfl⟩ := Prod.mk.inj (Except.ok.inj (hrun.symm.trans hrun'))
      have hset := hover.settle A
      rw [settlement] at hmean
      dsimp only at hmean
      generalize hsettle : t.settle A = p at hstep hset hmean
      obtain ⟨t₂, A₂⟩ := p
      cases t₂ with
      | ask event options next => cases hstep
      | done s' =>
        obtain ⟨heq, hnone⟩ := hstep
        cases heq
        refine ⟨_, dfs_leaf hS hrun hall hnone, fun leaf hleaf => ?_, fun hS' f => ?_⟩
        · rw [DfsState.emitLeaf] at hleaf
          split at hleaf
          · exact .inl hleaf
          rcases List.mem_append.1 hleaf with hleaf | hleaf
          · exact .inl hleaf
          · obtain rfl := List.mem_singleton.1 hleaf
            exact .inr ⟨rfl, h.honest.answersOffered hE.sound.2 (.of_trail h.trail)
              ⟨s, A₂, by rw [settlement]; exact hsettle⟩⟩
        · have hbudget : ¬ E.cfg.maxLeaves ≤ S.countExec.leaves := by
            intro hle
            simp [DfsState.emitLeaf, hle, DfsState.stopped] at hS'
          rw [DfsState.emitLeaf, if_neg hbudget]
          show total (S.emitted ++ [E.leaf path s]) f = _
          rw [total_append, hmean]
          simp [total, DfsEnv.leaf, leafProb, hE.exact, h.prob, Turn.mean]
      | draw call next =>
        rcases hstep with ⟨event, options, hpause⟩ | ⟨s', idx, -, hidx, he, hocc⟩
        · cases hpause
        have hsat := Turn.settle_draw hsettle
        have hp := hset.1.proper hsat
        obtain ⟨entries, hent, hperm⟩ := branchEntries_spec hE.exact hp (.inl rfl) c.log idx
        have hbody : ∀ pe ∈ entries, ∀ S₁ : DfsState σ, S₁.stopped = false →
            ∃ S₂, E.dfs room (path ++ [pe]) (k + 1) S₁ = .ok S₂ ∧
              (∀ leaf ∈ S₂.emitted, leaf ∈ S₁.emitted ∨ E.GoodLeaf leaf) ∧
              (S₂.stopped = false → ∀ f, total S₂.emitted f = total S₁.emitted f +
                q * pe.prob.getD 0 * E.oppProb *
                  (next (call.draw.outcome pe.value)).mean E.cfg.aggregateDamageRolls A₂ f) := by
          intro pe hpe S₁ hS₁
          obtain ⟨o, ho, rfl⟩ := List.mem_map.1 (hperm.mem_iff.1 hpe)
          exact ih (h.branch hout hsettle ho hocc) hS₁
        obtain ⟨S', hloop, hgood, htotal⟩ := forEach_total_eq hbody (S := S.countExec) hS
        refine ⟨S', ?_, hgood, fun hS' f => ?_⟩
        · rw [dfs_branch hS hrun hall hidx he, hent, ok_bind, hloop]
        rw [htotal hS' f, (hperm.map _).sum_eq, List.map_map, hmean]
        simp only [Turn.mean, hsat, avg]
        rw [← List.sum_map_mul_left]
        refine congrArg (total S.emitted f + List.sum ·) (List.map_congr_left fun o _ => ?_)
        simp only [branchEntry, Function.comp_apply, Option.getD_some]
        ring

end Search

section Step

variable {O : OracleEnv σ}

/-- What the children of a step are to be: the law of the turn, averaged over the AI's actions,
with every run they come from offered the answers it consumed. -/
structure OracleEnv.Exact (O : OracleEnv σ) (leaves : List (Leaf σ)) : Prop where
  law : ∀ f, total leaves f = avg O.aiProbs fun a => (O.turn a).law f
  offered : ∀ leaf ∈ leaves, (O.turn leaf.aiAction).AnswersOffered (channelsOf leaf.path)

/-- The AI actions that a step expands. -/
def OracleEnv.Expands (O : OracleEnv σ) (a : ExecAction) : Prop :=
  ∃ p, (a, p) ∈ O.aiProbs ∧ p ≠ 0

theorem stepLoop_stopped {aps : List (ExecAction × Rat)} {emitted leaves : List (Leaf σ)}
    {stats stats' : StepStats} (h : stepLoop O aps (emitted, stats) = .ok (leaves, stats'))
    (ha : stats'.aborted = false) (hb : stats'.budgetExceeded = false) :
    stats.aborted = false ∧ stats.budgetExceeded = false := by
  by_cases hstop : stats.aborted ∨ stats.budgetExceeded
  · have : stepLoop O aps (emitted, stats) = .ok (emitted, stats) := by
      cases aps with
      | nil => rfl
      | cons ap aps => rw [stepLoop, if_pos hstop]
    obtain ⟨rfl, rfl⟩ := Prod.mk.inj (Except.ok.inj (this.symm.trans h))
    exact ⟨ha, hb⟩
  · simpa using hstop

theorem stepLoop_total (hcollapse : O.cfg.collapse = .none)
    (hturn : ∀ a, O.Expands a → (O.turn a).Over (·.Sound O.cfg.aggregateDamageRolls) Posed)
    (hdepth : ∀ a, O.Expands a → (O.turn a).WithinDepth O.cfg.aggregateDamageRolls)
    (hsettled : ∀ a, O.Expands a → (O.turn a).QuestionsSettled O.cfg.aggregateDamageRolls)
    {aps : List (ExecAction × Rat)} (haps : ∀ ap ∈ aps, ap ∈ O.aiProbs)
    {emitted : List (Leaf σ)} {stats : StepStats}
    (hgood : ∀ leaf ∈ emitted, (O.turn leaf.aiAction).AnswersOffered (channelsOf leaf.path)) :
    ∃ leaves stats', stepLoop O aps (emitted, stats) = .ok (leaves, stats') ∧
      (∀ leaf ∈ leaves, (O.turn leaf.aiAction).AnswersOffered (channelsOf leaf.path)) ∧
      (stats'.aborted = false → stats'.budgetExceeded = false → ∀ f,
        total leaves f = total emitted f + avg aps fun a => (O.turn a).law f) := by
  induction aps generalizing emitted stats with
  | nil => exact ⟨emitted, stats, rfl, hgood, fun _ _ f => by simp⟩
  | cons ap aps ih =>
    have ih := @ih fun ap' h => haps ap' (List.mem_cons_of_mem _ h)
    have hap := haps ap List.mem_cons_self
    by_cases hstop : stats.aborted ∨ stats.budgetExceeded
    · refine ⟨emitted, stats, by rw [stepLoop, if_pos hstop], hgood, fun ha hb => ?_⟩
      simp [ha, hb] at hstop
    obtain ⟨a, p⟩ := ap
    by_cases hzero : p = 0
    · obtain ⟨leaves, stats', hloop, hgood', htotal⟩ := @ih emitted stats hgood
      refine ⟨leaves, stats', by rw [stepLoop, if_neg hstop, if_pos hzero, hloop], hgood',
        fun ha hb f => ?_⟩
      rw [htotal ha hb f, avg_cons, hzero, zero_mul, zero_add]
    have hexp : O.Expands a := ⟨p, hap, hzero⟩
    have hE : (O.dfsEnv (a, p)).Modeled := ⟨hcollapse, hturn a hexp⟩
    obtain ⟨S, hdfs, hleaf, htotal₁⟩ := dfs_total hE (hsettled a hexp) (hdepth a hexp)
      (.root (O.dfsEnv (a, p))) (S := { emitted }) rfl
    have hgood₁ : ∀ leaf ∈ S.emitted,
        (O.turn leaf.aiAction).AnswersOffered (channelsOf leaf.path) := by
      intro leaf hmem
      rcases hleaf leaf hmem with hold | ⟨hact, hoff⟩
      · exact hgood leaf hold
      · rw [hact]
        exact hoff
    let stats₁ : StepStats :=
      { leaves := stats.leaves + S.leaves
        turnExecutions := stats.turnExecutions + S.turnExecs
        aborted := S.aborted
        budgetExceeded := S.budgetExceeded }
    obtain ⟨leaves, stats', hloop, hgood', htotal⟩ := @ih S.emitted stats₁ hgood₁
    refine ⟨leaves, stats', by rw [stepLoop, if_neg hstop, if_neg hzero, hdfs, ok_bind, hloop],
      hgood', fun ha hb f => ?_⟩
    obtain ⟨haborted, hbudget⟩ := stepLoop_stopped hloop ha hb
    have hstop₁ : S.stopped = false := Bool.or_eq_false_iff.2 ⟨haborted, hbudget⟩
    have hlaw := Turn.mean_nil hE.sound.2 f
    rw [htotal ha hb f, htotal₁ hstop₁ f, avg_cons, hlaw]
    show total emitted f + 1 * p * (O.turn a).law f + _ = _
    ring

/-- Where the questions are settled, a step computes the exact distribution of the turn. -/
theorem step_exact (O : OracleEnv σ) (hview : checkPreconditions O.view O.playerAction = .ok ())
    (hai : checkAiProbs O.aiProbs = .ok ()) (hcollapse : O.cfg.collapse = .none)
    (hturn : ∀ a, O.Expands a → (O.turn a).Over (·.Sound O.cfg.aggregateDamageRolls) Posed)
    (hdepth : ∀ a, O.Expands a → (O.turn a).WithinDepth O.cfg.aggregateDamageRolls)
    (hsettled : ∀ a, O.Expands a → (O.turn a).QuestionsSettled O.cfg.aggregateDamageRolls) :
    ∃ leaves stats, step O = .ok (leaves, stats) ∧
      (stats.aborted = false → stats.budgetExceeded = false → O.Exact leaves) := by
  have hnil : ∀ leaf ∈ ([] : List (Leaf σ)),
      (O.turn leaf.aiAction).AnswersOffered (channelsOf leaf.path) := by simp
  obtain ⟨leaves, stats, hloop, hoffered, hlaw⟩ :=
    stepLoop_total hcollapse hturn hdepth hsettled (fun _ h => h) hnil
  refine ⟨leaves, stats, by rw [step, hview, ok_bind, hai, ok_bind, hloop], fun ha hb => ?_⟩
  refine ⟨fun f => ?_, hoffered⟩
  rw [hlaw ha hb f]
  simp [total]

end Step

namespace Turn

variable {aggregate : Bool} {P : ResolverCall → Prop} {Q : RngEvent → List Int → Prop}

theorem Explored.config_over {t₀ t : Turn σ} {n : Nat} {A : Answers} (ht : t₀.Over P Q)
    (h : Explored aggregate t₀ n t A) : t.Over P Q := by
  induction h with
  | root => exact ht
  | pause _ _ _ ih => exact ih
  | @branch n t A A' s call next v _ _ hs _ ih =>
    have hset := ih.settle A
    rw [hs] at hset
    exact hset.2 _

theorem nextOffers_of_fixed {options : RngEvent → List Int} {t : Turn σ}
    (ht : t.Over P fun event os => os = options event) (event : RngEvent) (A : Answers) :
    t.NextOffers aggregate event (questionLaw event (options event)) A := by
  induction t generalizing A with
  | done s => trivial
  | draw call next ih =>
    cases hsat : call.draw.saturated with
    | some w =>
      simp only [NextOffers, hsat]
      exact ih _ (ht.2 _) A
    | none =>
      simp only [NextOffers, hsat]
      exact fun v _ => ih _ (ht.2 _) A
  | ask event' os next ih =>
    cases hA : A event' with
    | nil =>
      simp only [NextOffers, hA]
      split
      · rename_i he
        subst he
        rw [ht.1]
      · exact fun a _ => ih _ (ht.2 _) A
    | cons a left =>
      simp only [NextOffers, hA]
      exact ih _ (ht.2 _) _

theorem questionsSettled_of_fixed {options : RngEvent → List Int} {t₀ : Turn σ}
    (ht : t₀.Over P fun event os => os = options event) : t₀.QuestionsSettled aggregate := by
  intro n t A event os hexp hout
  have hover := hexp.config_over ht
  rw [outlook_over hover hout]
  exact nextOffers_of_fixed hover event A

end Turn

def loneActive : ActiveView where
  fainted := false
  hp := 1
  ability := 0
  baseAbility := 0

def acupressureTurn : Turn Int :=
  .draw (.accuracy 85 false 50 1) fun hit =>
    .ask .acupressureStat (upTo 7) fun a => .done (10 * a.chosen + hit)

def acupressureEnv : OracleEnv Int where
  view := { player := [loneActive], opponent := [loneActive] }
  playerAction := { moveSlot := 0 }
  aiProbs := [({ moveSlot := 0 }, 1)]
  turn := fun _ => acupressureTurn
  emit := fun _ => true
  cfg := {}

def subMove (options : List Int) (a : OracleAnswer) : Int :=
  if a.chosen ∈ options then a.chosen else 0

def sleepTalkTurn : Turn (List Int) :=
  .draw (.quickClaw 50) fun claw =>
    let first := if claw = 1 then [1] else [2]
    let second := if claw = 1 then [2] else [1]
    .ask .sleepTalkMove first fun a => .ask .sleepTalkMove second fun b =>
      .done [claw, subMove first a, subMove second b]

def sleepTalkEnv : OracleEnv (List Int) where
  view := { player := [loneActive], opponent := [loneActive] }
  playerAction := { moveSlot := 0 }
  aiProbs := [({ moveSlot := 0 }, 1)]
  turn := fun _ => sleepTalkTurn
  emit := fun _ => true
  cfg := {}

theorem acupressureTurn_over : acupressureTurn.Over (·.Sound true) Posed := by
  have htol : tolerance = 1 / 10 ^ 12 := rfl
  refine ⟨⟨trivial, ?_⟩, fun v => ⟨⟨by simp, by decide, nofun, nofun, nofun, nofun⟩,
    fun _ => trivial⟩⟩
  exact separated_of_bernoulli (p := 85 / 100) rfl rfl rfl (by decide +kernel)
    (by rw [htol]; norm_num) (by rw [htol]; norm_num [abs_of_neg])

theorem acupressureTurn_settled : acupressureTurn.QuestionsSettled true :=
  @Turn.questionsSettled_of_fixed _ _ (fun _ => True) (fun _ => upTo 7) _
    ⟨trivial, fun _ => ⟨rfl, fun _ => trivial⟩⟩

theorem acupressureTurn_withinDepth : acupressureTurn.WithinDepth true := by
  have hexp : ∀ n t A, Turn.Explored true acupressureTurn n t A →
      (n = 0 ∧ t = acupressureTurn ∧ A = fun _ => []) ∨
      (n = 1 ∧ t = acupressureTurn ∧ ∃ a, A .acupressureStat = [a]) ∨
      (n = 2 ∧ ∃ s, (t.settle A).1 = .done s ∧ t.outlook A = .finished s) := by
    have hsat : (ResolverCall.accuracy 85 false 50 1).draw.saturated = none := by decide +kernel
    intro n t A h
    induction h with
    | root => exact .inl ⟨rfl, rfl, rfl⟩
    | pause _ hout _ ih =>
      rcases ih with ⟨rfl, rfl, rfl⟩ | ⟨rfl, rfl, a, ha⟩ | ⟨rfl, s, -, hfin⟩
      · have hev : (RngEvent.acupressureStat : RngEvent) = _ := (TurnResult.paused.inj hout).1
        subst hev
        exact .inr (.inl ⟨rfl, rfl, _, List.nil_append _⟩)
      · simp only [acupressureTurn, Turn.outlook, hsat, ha] at hout
        cases hout
      · rw [hfin] at hout
        cases hout
    | branch _ hout hs _ ih =>
      rcases ih with ⟨rfl, rfl, rfl⟩ | ⟨rfl, rfl, a, ha⟩ | ⟨rfl, s, hdone, -⟩
      · cases hout
      · simp only [acupressureTurn, Turn.settle, hsat] at hs
        cases hs
        exact .inr (.inr ⟨rfl, _, by simp only [Turn.settle, ha]; rfl, by simp only [Turn.outlook, ha]⟩)
      · rw [hs] at hdone
        cases hdone
  intro n t A h
  rcases hexp n t A h with ⟨rfl, -⟩ | ⟨rfl, -⟩ | ⟨rfl, -⟩ <;> decide

theorem acupressure_exact : ∃ leaves stats, step acupressureEnv = .ok (leaves, stats) ∧
    (stats.aborted = false → stats.budgetExceeded = false → acupressureEnv.Exact leaves) :=
  step_exact acupressureEnv rfl (by decide +kernel) rfl (fun _ _ => acupressureTurn_over)
    (fun _ _ => acupressureTurn_withinDepth) (fun _ _ => acupressureTurn_settled)

theorem sleepTalkTurn_over : sleepTalkTurn.Over (·.Sound true) Posed := by
  have htol : tolerance = 1 / 10 ^ 12 := rfl
  refine ⟨⟨trivial, ?_⟩, fun v => ⟨?_, fun _ => ⟨?_, fun _ => trivial⟩⟩⟩
  · exact separated_of_bernoulli (p := 1 / 5) rfl rfl rfl (by decide +kernel)
      (by rw [htol]; norm_num) (by rw [htol]; norm_num [abs_of_neg])
  all_goals exact ⟨by simp, by split <;> decide, nofun, nofun, nofun, nofun⟩

/-- Without the claw the opponent moves first, so its move is queued for the first question; with
the claw the player is asked first, and both moves fail. -/
theorem sleepTalk_not_exact : sleepTalkTurn.Over (·.Sound true) Posed ∧
    ∃ leaves stats, step sleepTalkEnv = .ok (leaves, stats) ∧ stats.aborted = false ∧
      stats.budgetExceeded = false ∧
      leaves.map (fun leaf => (leaf.child, leaf.prob)) =
        [([0, 2, 1], some (4 / 5)), ([1, 0, 0], some (1 / 5))] ∧
      ¬ sleepTalkEnv.Exact leaves := by
  refine ⟨sleepTalkTurn_over, ?_⟩
  have hstep : (step sleepTalkEnv).map (fun r =>
      (r.1.map fun leaf => (leaf.child, leaf.prob), r.2.aborted, r.2.budgetExceeded)) =
      .ok ([([0, 2, 1], some (4 / 5)), ([1, 0, 0], some (1 / 5))], false, false) := by
    decide +kernel
  obtain ⟨⟨leaves, stats⟩, hok, heq⟩ := map_eq_ok.1 hstep
  obtain ⟨hleaves, hstats⟩ := Prod.mk.inj heq
  obtain ⟨haborted, hbudget⟩ := Prod.mk.inj hstats
  refine ⟨leaves, stats, hok, haborted, hbudget, hleaves, fun hexact => ?_⟩
  let bothFail : List Int → Rat := fun s => if s = [1, 0, 0] then 1 else 0
  have hlaw : (avg sleepTalkEnv.aiProbs fun a => (sleepTalkEnv.turn a).law bothFail) = 0 := by
    decide +kernel
  have htotal : total leaves bothFail = 1 / 5 := by
    have : total leaves bothFail = ((leaves.map fun leaf => (leaf.child, leaf.prob)).map
        fun x => x.2.getD 0 * bothFail x.1).sum := by
      simp [total, Function.comp_def]
    rw [this, hleaves]
    decide +kernel
  have := hexact.law bothFail
  rw [hlaw, htotal] at this
  norm_num at this

end NuzlockeSolver
