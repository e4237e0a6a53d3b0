import NuzlockeSolver.Oracle.Turn

/-!
# Turn programs that may raise

A turn program that finishes with a value or an exception, and a loop over a list in it: a step
keeps an invariant where it is taken on a condition, and the loop keeps it when every step that it
reaches is taken so.
-/

namespace NuzlockeSolver

abbrev FallibleTurn (σ : Type) := ExceptT Fault Turn σ

namespace FallibleTurn

variable {σ τ α : Type}

def ofTurn (t : Turn σ) : FallibleTurn σ := ExceptT.mk (t >>= fun s => pure (.ok s))

def ofExcept (r : Except String σ) : FallibleTurn σ :=
  ExceptT.mk (pure (r.mapError Fault.runtimeError))

/-- A run that finishes with a value. -/
def Yields (t : FallibleTurn σ) (c : Channels) (s : σ) (c' : Channels) : Prop :=
  Turn.Returns t.run c (.ok s) c'

@[simp] theorem yields_pure {s s' : σ} {c c' : Channels} :
    Yields (pure s) c s' c' ↔ s = s' ∧ c = c' := by
  change (Turn.done (Except.ok s)).Returns c (.ok s') c' ↔ _
  rw [Turn.returns_done, Except.ok.injEq]

theorem not_yields_throw {e : Fault} {s : σ} {c c' : Channels} :
    ¬ Yields (throw e : FallibleTurn σ) c s c' := by
  intro h
  have h : (Turn.done (Except.error e : Except Fault σ)).Returns c (.ok s) c' := h
  cases (Turn.returns_done.mp h).1

theorem yields_ofTurn {t : Turn σ} {s : σ} {c c' : Channels} :
    Yields (ofTurn t) c s c' ↔ t.Returns c s c' := by
  change (t >>= fun s => pure (Except.ok s)).Returns c (Except.ok s : Except Fault σ) c' ↔ _
  rw [Turn.returns_bind]
  constructor
  · intro ⟨s', c₁, ht, hpure⟩
    obtain ⟨heq, rfl⟩ := Turn.returns_pure.mp hpure
    cases heq
    exact ht
  · intro ht
    exact ⟨s, c', ht, Turn.returns_pure.mpr ⟨rfl, rfl⟩⟩

theorem yields_ofExcept {r : Except String σ} {s : σ} {c c' : Channels} :
    Yields (ofExcept r) c s c' ↔ r = .ok s ∧ c = c' := by
  change (Turn.done (r.mapError Fault.runtimeError)).Returns c (.ok s) c' ↔ _
  rw [Turn.returns_done]
  cases r <;> simp [Except.mapError]

theorem yields_bind {t : FallibleTurn σ} {f : σ → FallibleTurn τ} {c c' : Channels} {r : τ} :
    Yields (t >>= f) c r c' ↔ ∃ s c₁, Yields t c s c₁ ∧ Yields (f s) c₁ r c' := by
  unfold Yields
  rw [ExceptT.run_bind, Turn.returns_bind]
  constructor
  · intro ⟨s, c₁, ht, hf⟩
    cases s with
    | ok s => exact ⟨s, c₁, ht, hf⟩
    | error e => cases (Turn.returns_pure.mp hf).1
  · intro ⟨s, c₁, ht, hf⟩
    exact ⟨.ok s, c₁, ht, hf⟩

def LoopMeets (step : σ → α → FallibleTurn σ) (P : σ → α → Channels → Prop) :
    List α → σ → Channels → Prop
  | [], _, _ => True
  | a :: rest, s, c =>
    P s a c ∧ ∀ s' c', Yields (step s a) c s' c' → LoopMeets step P rest s' c'

theorem loop_invariant (Inv : σ → Prop) {step : σ → α → FallibleTurn σ}
    {P : σ → α → Channels → Prop} {l : List α}
    (hstep : ∀ s, ∀ a ∈ l, ∀ c s' c', Inv s → P s a c → Yields (step s a) c s' c' → Inv s')
    {s t : σ} {c c' : Channels} (hs : Inv s) (hmeets : LoopMeets step P l s c)
    (h : Yields (l.foldlM step s) c t c') : Inv t := by
  induction l generalizing s c with
  | nil =>
    obtain ⟨rfl, -⟩ := yields_pure.mp h
    exact hs
  | cons a rest ih =>
    rw [List.foldlM_cons] at h
    obtain ⟨s₁, c₁, hfirst, hrest⟩ := yields_bind.mp h
    have hs₁ := hstep s a List.mem_cons_self c s₁ c₁ hs hmeets.1 hfirst
    exact ih (fun s a ha => hstep s a (List.mem_cons_of_mem _ ha)) hs₁
      (hmeets.2 s₁ c₁ hfirst) hrest

theorem loopMeets_of_invariant (Inv : σ → Prop) {step : σ → α → FallibleTurn σ}
    {P : σ → α → Channels → Prop} (hP : ∀ s a c, Inv s → P s a c)
    (hstep : ∀ s a c s' c', Inv s → Yields (step s a) c s' c' → Inv s') (l : List α) {s : σ}
    (c : Channels) (hs : Inv s) : LoopMeets step P l s c := by
  induction l generalizing s c with
  | nil => trivial
  | cons a rest ih =>
    exact ⟨hP s a c hs, fun s' c' hrun => ih c' (hstep s a c s' c' hs hrun)⟩

theorem LoopMeets.mono {step : σ → α → FallibleTurn σ} {P Q : σ → α → Channels → Prop}
    (hPQ : ∀ s a c, P s a c → Q s a c) {l : List α} {s : σ} {c : Channels}
    (h : LoopMeets step P l s c) : LoopMeets step Q l s c := by
  induction l generalizing s c with
  | nil => trivial
  | cons a rest ih => exact ⟨hPQ s a c h.1, fun s' c' hrun => ih (h.2 s' c' hrun)⟩

def result? (t : FallibleTurn σ) (c : Channels) : Option (σ × Channels) :=
  match Turn.run t.run c with
  | .ok (.finished (.ok s), c') => some (s, c')
  | _ => none

theorem yields_iff_result? {t : FallibleTurn σ} {c c' : Channels} {s : σ} :
    Yields t c s c' ↔ result? t c = some (s, c') := by
  unfold Yields Turn.Returns result?
  split
  · rename_i hrun
    rw [hrun]
    simp
  · rename_i hother
    refine iff_of_false (fun hrun => hother s c' hrun) (by simp)

instance decidableForallYields (t : FallibleTurn σ) (c : Channels) (Q : σ → Channels → Prop)
    [∀ s c', Decidable (Q s c')] : Decidable (∀ s c', Yields t c s c' → Q s c') :=
  decidable_of_iff (∀ r, result? t c = some r → Q r.1 r.2) (by
    constructor
    · intro h s c' hrun
      exact h (s, c') (yields_iff_result?.mp hrun)
    · intro h r hr
      exact h r.1 r.2 (yields_iff_result?.mpr hr))

instance decidableLoopMeets (step : σ → α → FallibleTurn σ) (P : σ → α → Channels → Prop)
    [∀ s a c, Decidable (P s a c)] : ∀ l s c, Decidable (LoopMeets step P l s c)
  | [], _, _ => .isTrue trivial
  | a :: rest, s, c =>
    have : ∀ s' c', Decidable (LoopMeets step P rest s' c') := decidableLoopMeets step P rest
    inferInstanceAs (Decidable (P s a c ∧ _))

theorem exists_yields_of_any {t : FallibleTurn σ} {c : Channels} {p : σ → Bool}
    (h : (result? t c).any (fun r => p r.1) = true) : ∃ s c', Yields t c s c' ∧ p s = true := by
  obtain ⟨⟨s, c'⟩, hrun, hp⟩ := (Option.any_eq_true _ _).mp h
  exact ⟨s, c', yields_iff_result?.mpr hrun, hp⟩

end FallibleTurn

end NuzlockeSolver
