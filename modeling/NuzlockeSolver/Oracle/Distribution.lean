import NuzlockeSolver.WeightedList
import NuzlockeSolver.Oracle.Trail

/-!
# The distribution of one turn

The exact law of a turn program draws every outcome with its probability and answers every
question with the declared weights. The search preloads an answer at the first pause it meets and
goes on to branch on earlier draws; this is harmless as long as whatever those draws come to, the
next question of that event offers the same weighted options.
-/

namespace NuzlockeSolver

open WeightedList

variable {σ : Type}

def questionLaw (event : RngEvent) (options : List Int) : List (OracleAnswer × Rat) :=
  match pauseEntries event options with
  | .ok entries => entries.map fun pe => (pe.override, pe.prob.getD 0)
  | .error _ => []

/-- The questions a turn of one active on each side can ask. -/
structure Posed (event : RngEvent) (options : List Int) : Prop where
  asked : event ∈ [.speedTie, .effectSporeWhich, .triAttackStatus, .metronomeMove, .sleepTalkMove,
    .starfBerryStat, .acupressureStat, .moodyStats]
  nonempty : options ≠ []
  speedTie : event = .speedTie → options.length = 2
  effectSpore : event = .effectSporeWhich → options.length = 3
  triAttack : event = .triAttackStatus → options.length = 3
  moody : event = .moodyStats → options = upTo 7

theorem Posed.catA {event : RngEvent} {options : List Int} (h : Posed event options) :
    CatA event options := by
  have hasked := h.asked
  simp only [List.mem_cons, List.not_mem_nil, or_false] at hasked
  rcases hasked with rfl | rfl | rfl | rfl | rfl | rfl | rfl | rfl <;> rfl

theorem Posed.catAProbSingle_ok {event : RngEvent} {options : List Int} (h : Posed event options)
    {idx : Nat} (hidx : idx < options.length) :
    ∃ p, catAProbSingle event options idx = .ok p := by
  have hasked := h.asked
  simp only [List.mem_cons, List.not_mem_nil, or_false] at hasked
  rcases hasked with rfl | rfl | rfl | rfl | rfl | rfl | rfl | rfl
  case inr.inl =>
    have hlen := h.effectSpore rfl
    rw [hlen] at hidx
    obtain rfl | rfl | rfl : idx = 0 ∨ idx = 1 ∨ idx = 2 := by omega
    all_goals exact ⟨_, by simp only [catAProbSingle, hlen, if_true]; rfl⟩
  all_goals simp [catAProbSingle, h.nonempty, h.speedTie]

theorem Posed.pauseEntries_ok {event : RngEvent} {options : List Int} (h : Posed event options) :
    ∃ entries, pauseEntries event options = .ok entries := by
  unfold pauseEntries
  split
  · rename_i hmoody
    rw [h.moody hmoody]
    exact ⟨_, rfl⟩
  · refine mapM_except_ok fun x hx => ?_
    have hidx : x.2 < options.length := by simpa using List.snd_lt_of_mem_zipIdx hx
    obtain ⟨p, hp⟩ := h.catAProbSingle_ok hidx
    exact ⟨_, by dsimp only; rw [hp]; rfl⟩

theorem mass_of_uniform {entries : List PrefixEntry} {p : Rat} {n : Nat}
    (hlen : entries.length = n) (hp : ∀ pe ∈ entries, pe.prob = some p) (hn : n * p = 1) :
    mass (entries.map fun pe => (pe.override, pe.prob.getD 0)) = 1 := by
  have : (entries.map fun pe => pe.prob.getD 0) = entries.map fun _ => p :=
    List.map_congr_left fun pe hpe => by simp [hp pe hpe]
  rw [mass, List.map_map]
  show (entries.map fun pe => pe.prob.getD 0).sum = 1
  rw [this, sum_map_const, hlen, hn]

theorem pauseEntries_single {event : RngEvent} {options : List Int} {entries : List PrefixEntry}
    (hne : event ≠ .moodyStats) (h : pauseEntries event options = .ok entries) :
    entries.length = options.length ∧
      ∀ pe ∈ entries, ∃ idx p, catAProbSingle event options idx = .ok p ∧ pe.prob = some p := by
  rw [pauseEntries, if_neg hne] at h
  have h := mapM_except_spec h
  refine ⟨by simpa using h.length_eq.symm, fun pe hpe => ?_⟩
  obtain ⟨⟨v, idx⟩, _, hentry⟩ := mem_of_forall₂ h hpe
  obtain ⟨p, hp, hentry⟩ := bind_eq_ok.1 hentry
  cases hentry
  exact ⟨idx, p, hp, rfl⟩

/-- Apart from Effect Spore the options of a single-pick question are equally likely. -/
theorem catAProbSingle_uniform {event : RngEvent} {options : List Int}
    (hposed : Posed event options) (hmoody : event ≠ .moodyStats)
    (hspore : event ≠ .effectSporeWhich) {idx : Nat} {p : Rat}
    (h : catAProbSingle event options idx = .ok p) : options.length * p = 1 := by
  have hpos : (options.length : Rat) ≠ 0 := by
    exact_mod_cast fun hlen => hposed.nonempty (List.length_eq_zero_iff.1 hlen)
  unfold catAProbSingle at h
  split at h
  · split at h
    · rename_i hlen
      cases h
      rw [hlen]
      norm_num
    · cases h
  · exact absurd rfl hspore
  · cases h
    rw [hposed.triAttack rfl]
    norm_num
  · rw [if_neg hposed.nonempty] at h
    cases h
    field_simp
  · rw [if_neg hposed.nonempty] at h
    cases h
    field_simp
  · rw [if_neg hposed.nonempty] at h
    cases h
    field_simp
  · rw [if_neg hposed.nonempty] at h
    cases h
    field_simp
  · exact absurd rfl hmoody
  all_goals cases h

theorem mass_questionLaw {event : RngEvent} {options : List Int} {entries : List PrefixEntry}
    (hposed : Posed event options) (h : pauseEntries event options = .ok entries) :
    mass (questionLaw event options) = 1 := by
  rw [questionLaw, h]
  dsimp only
  by_cases hmoody : event = .moodyStats
  · subst hmoody
    obtain rfl := hposed.moody rfl
    obtain rfl := Except.ok.inj h
    decide +kernel
  obtain ⟨hlen, hprob⟩ := pauseEntries_single hmoody h
  obtain ⟨pe₀, hpe₀⟩ : ∃ pe, pe ∈ entries := by
    refine List.exists_mem_of_ne_nil _ fun hnil => hposed.nonempty ?_
    rw [← List.length_eq_zero_iff, ← hlen, hnil, List.length_nil]
  by_cases hspore : event = .effectSporeWhich
  · subst hspore
    have hthree : options.length = 3 := by
      obtain ⟨idx, p, hp, -⟩ := hprob pe₀ hpe₀
      by_contra hthree
      simp [catAProbSingle, hthree] at hp
    obtain ⟨a, b, c, rfl⟩ := List.length_eq_three.1 hthree
    obtain rfl := Except.ok.inj h
    norm_num [mass]
  · obtain ⟨idx₀, p, hp, -⟩ := hprob pe₀ hpe₀
    have hone := catAProbSingle_uniform hposed hmoody hspore hp
    refine mass_of_uniform hlen (fun pe hpe => ?_) hone
    obtain ⟨idx, p', hp', hpe'⟩ := hprob pe hpe
    have hone' := catAProbSingle_uniform hposed hmoody hspore hp'
    have hne : (options.length : Rat) ≠ 0 := left_ne_zero_of_mul_eq_one hone
    rw [hpe', mul_left_cancel₀ hne (hone'.trans hone.symm)]

namespace Turn

def law : Turn σ → (σ → Rat) → Rat
  | done s, f => f s
  | draw call next, f =>
    match call.draw.saturated with
    | some w => (next (call.draw.outcome w)).law f
    | none =>
      avg (call.draw.support.map fun v => (v, call.draw.prob v)) fun v =>
        (next (call.draw.outcome v)).law f
  | ask event options next, f => avg (questionLaw event options) fun a => (next a).law f

def mean (aggregate : Bool) : Turn σ → Answers → (σ → Rat) → Rat
  | done s, _, f => f s
  | draw call next, A, f =>
    match call.draw.saturated with
    | some w => (next (call.draw.outcome w)).mean aggregate A f
    | none =>
      avg (call.draw.offers aggregate) fun v => (next (call.draw.outcome v)).mean aggregate A f
  | ask event options next, A, f =>
    match A event with
    | [] => avg (questionLaw event options) fun a => (next a).mean aggregate A f
    | a :: left => (next a).mean aggregate (Function.update A event left) f

def NextOffers (aggregate : Bool) (event : RngEvent) (W : List (OracleAnswer × Rat)) :
    Turn σ → Answers → Prop
  | done _, _ => True
  | draw call next, A =>
    match call.draw.saturated with
    | some w => (next (call.draw.outcome w)).NextOffers aggregate event W A
    | none => ∀ v ∈ call.draw.offered aggregate,
        (next (call.draw.outcome v)).NextOffers aggregate event W A
  | ask event' options next, A =>
    match A event' with
    | [] =>
      if event' = event then (questionLaw event' options).Perm W
      else ∀ a ∈ (questionLaw event' options).map (·.1), (next a).NextOffers aggregate event W A
    | a :: left => (next a).NextOffers aggregate event W (Function.update A event' left)

variable {aggregate : Bool}

theorem add_of_empty {A : Answers} {event event' : RngEvent} (a : OracleAnswer)
    (h : A event' = []) :
    (event' = event → (A.add event a) event' = [a] ∧
      Function.update (A.add event a) event' [] = A) ∧
    (event' ≠ event → (A.add event a) event' = []) := by
  refine ⟨?_, fun he => by simp [Answers.add, he, h]⟩
  rintro rfl
  refine ⟨by simp [Answers.add, h], ?_⟩
  rw [Answers.add, Function.update_idem, ← h, Function.update_eq_self]

theorem mean_nil {t : Turn σ} (ht : t.Over (·.Sound aggregate) CatA) (f : σ → Rat) :
    t.mean aggregate (fun _ => []) f = t.law f := by
  induction t with
  | done s => rfl
  | draw call next ih =>
    cases hsat : call.draw.saturated with
    | some w =>
      simp only [mean, law, hsat]
      exact ih _ (ht.2 _)
    | none =>
      simp only [mean, law, hsat]
      calc avg (call.draw.offers aggregate) (fun v =>
            (next (call.draw.outcome v)).mean aggregate (fun _ => []) f)
          = avg (call.draw.offers aggregate) fun v => (next (call.draw.outcome v)).law f :=
            avg_congr fun v _ => ih _ (ht.2 _)
        _ = avg (call.draw.support.map fun v => (v, call.draw.prob v)) fun v =>
              (next (call.draw.outcome v)).law f := by
            refine ((ht.1.proper hsat).mean fun v => (next v).law f).trans ?_
            simp [avg, Function.comp_def]
  | ask event options next ih =>
    simp only [mean, law]
    exact avg_congr fun a _ => ih _ (ht.2 _)

theorem mean_settle (t : Turn σ) (A : Answers) (f : σ → Rat) :
    t.mean aggregate A f = (settlement (t, A)).1.mean aggregate (settlement (t, A)).2 f := by
  induction t generalizing A with
  | done s => rfl
  | draw call next ih =>
    cases hsat : call.draw.saturated with
    | some w =>
      simp only [settlement, settle, mean, hsat]
      exact ih _ _
    | none => simp only [settlement, settle, hsat]
  | ask event options next ih =>
    cases hA : A event with
    | nil => simp only [settlement, settle, hA]
    | cons a left =>
      simp only [settlement, settle, mean, hA]
      exact ih _ _

theorem mean_preload {t : Turn σ} {A : Answers} {event : RngEvent}
    {W : List (OracleAnswer × Rat)} (hW : mass W = 1)
    (h : t.NextOffers aggregate event W A) (f : σ → Rat) :
    t.mean aggregate A f = avg W fun a => t.mean aggregate (A.add event a) f := by
  induction t generalizing A with
  | done s =>
    show f s = avg W fun _ => f s
    rw [avg_const, hW, one_mul]
  | draw call next ih =>
    cases hsat : call.draw.saturated with
    | some w =>
      simp only [NextOffers, hsat] at h
      simp only [mean, hsat]
      exact ih _ h
    | none =>
      simp only [NextOffers, hsat] at h
      simp only [mean, hsat]
      rw [avg_comm]
      exact avg_congr fun o ho => ih _ (h o.1 (List.mem_map_of_mem ho))
  | ask event' options next ih =>
    cases hA : A event' with
    | nil =>
      simp only [NextOffers, hA] at h
      by_cases he : event' = event
      · rw [if_pos he] at h
        rw [mean, hA, avg_perm h]
        refine avg_congr fun a _ => ?_
        obtain ⟨hadd, hupd⟩ := (add_of_empty a.1 hA).1 he
        simp only [mean, hadd, hupd]
      · rw [if_neg he] at h
        have hmean : ∀ a, (ask event' options next).mean aggregate (A.add event a) f =
            avg (questionLaw event' options) fun b => (next b).mean aggregate (A.add event a) f := by
          intro a
          simp only [mean, (add_of_empty a hA).2 he]
        simp only [hmean]
        rw [mean, hA, avg_comm]
        exact avg_congr fun b hb => ih _ (h b.1 (List.mem_map_of_mem hb))
    | cons b left =>
      simp only [NextOffers, hA] at h
      rw [mean, hA]
      have hmean : ∀ a, (ask event' options next).mean aggregate (A.add event a) f =
          (next b).mean aggregate (Answers.add (Function.update A event' left) event a) f := by
        intro a
        obtain ⟨hadd, hupd⟩ := Answers.add_update event a hA
        simp only [mean, hadd, hupd]
      simp only [hmean]
      exact ih _ h

end Turn

end NuzlockeSolver
