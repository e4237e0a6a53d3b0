import NuzlockeSolver.Bsolver.Exact

/-!
# Collapsed modes

A collapsed mode searches a subset of the outcomes. Since an action whose children are all
self-loops fails, dropping every other child of an action fabricates a loss; a LOSS is conclusive
when the collapse keeps a child that leaves the state wherever one exists.
-/

namespace NuzlockeSolver

open AndOrGraph

variable {σ : Type*} {P P' : BProblem σ} {q : Question}

structure Collapses (P P' : BProblem σ) : Prop where
  classify : ∀ s, P'.classify s = P.classify s
  legal : ∀ s, P'.legal s = P.legal s
  pack : ∀ s, P'.pack s = P.pack s
  nonempty : ∀ s a, (P'.step s a).flatten ≠ []
  subset : ∀ s a, ∀ c ∈ (P'.step s a).flatten, c ∈ (P.step s a).flatten

def Progresses (P P' : BProblem σ) : Prop :=
  ∀ s a, (∃ c ∈ (P.step s a).flatten, P.pack c ≠ P.pack s) →
    ∃ c ∈ (P'.step s a).flatten, P'.pack c ≠ P'.pack s

theorem region_subset_of_collapses (h : Collapses P P') (hp : Progresses P P') :
    (bGraph P q).region ⊆ (bGraph P' q).region := by
  refine region_subset _ ⟨fun s hw => Winning.won ?_, fun s a hl ha hc => ?_⟩
  · exact (h.classify s).trans hw
  · refine Winning.move (Set.notMem_empty s) ((h.classify s).trans hl) ⟨?_, ha.2.1, ?_⟩ ?_
    · rw [h.legal]
      exact ha.1
    · exact hp s a ha.2.2
    · rintro c ⟨hmem, hne⟩
      rw [h.pack, h.pack] at hne
      exact hc ⟨h.subset s a c hmem, hne⟩

/-- A LOSS found in a collapsed mode that keeps progress refutes the exact WIN. -/
theorem collapsed_loss_conclusive (h : Collapses P P') (hp : Progresses P P') (q : Question)
    (cfg cfg' : BsolverConfig) (s : σ)
    (hloss : (bsolverCertify P' q cfg' s).1.verdict = .loss) :
    (bsolverCertify P q cfg s).1.verdict ≠ .win ∧ s ∉ (bGraph P q).region := by
  have hout : s ∉ (bGraph P q).region := fun hreg =>
    (bsolverCertify_region P' q cfg' s).2.1 hloss (region_subset_of_collapses h hp hreg)
  exact ⟨fun hwin => hout ((bsolverCertify_region P q cfg s).1 hwin).1, hout⟩

def fork (outcomes : List (Fin 3)) : BProblem (Fin 3) where
  classify s := if s.val = 0 then .cont else if s.val = 1 then .win else .loss
  legal _ := [{ moveSlot := 0 }]
  step s _ := if s.val = 0 then [outcomes] else [[s]]
  pack s := ⟨0, 10, s.val.toUInt16⟩
  classify_congr := by decide
  legal_congr := by decide
  step_congr := by
    intro s t h
    have hst : s = t := by revert s t; decide
    exact hst ▸ fun a c hc => ⟨c, hc, rfl⟩

theorem fork_collapses {some all : List (Fin 3)} (hne : some ≠ []) (hsub : some ⊆ all) :
    Collapses (fork all) (fork some) := by
  refine ⟨fun _ => rfl, fun _ => rfl, fun _ => rfl, fun s a => ?_, fun s a c hc => ?_⟩
  · by_cases hs : s = 0 <;> simp [fork, hs, hne]
  · by_cases hs : s = 0
    · simp only [fork, hs, Fin.val_zero, if_true, List.flatten_cons, List.flatten_nil, List.append_nil] at hc ⊢
      exact hsub hc
    · simpa [fork, hs] using hc

theorem fork_loss_conclusive :
    (bsolverCertify (fork [2]) {} {} 0).1.verdict = .loss ∧
    (bsolverCertify (fork [1, 2]) {} {} 0).1.verdict ≠ .win := by
  have hloss : (bsolverCertify (fork [2]) {} {} 0).1.verdict = .loss := by decide +kernel
  have hprogress : Progresses (fork [1, 2]) (fork [2]) := by
    intro s a hleave
    by_cases hs : s = 0
    · subst hs
      exact ⟨2, by simp [fork], by decide⟩
    · simp [fork, hs] at hleave
  exact ⟨hloss, (collapsed_loss_conclusive (fork_collapses (by decide) (by decide)) hprogress
    {} {} {} 0 hloss).1⟩

/-- Keeping only the self-loop of the start loses a question that the exact search wins. -/
theorem starved_loss_not_conclusive :
    ¬ ∀ (P P' : BProblem (Fin 3)) (q : Question) (cfg cfg' : BsolverConfig) (s : Fin 3),
      Collapses P P' → (bsolverCertify P' q cfg' s).1.verdict = .loss →
      (bsolverCertify P q cfg s).1.verdict ≠ .win := by
  intro h
  exact h (fork [0, 1]) (fork [0]) {} {} {} 0 (fork_collapses (by decide) (by decide))
    (by decide +kernel) (by decide +kernel)

end NuzlockeSolver
