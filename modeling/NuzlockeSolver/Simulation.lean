import NuzlockeSolver.AndOrGraph

/-!
# Simulation of AND-OR graphs

A graph stands for another when every node of the first stands for nodes of the second and a move
of the first can be made from all of them without leaving what its successors stand for. A move may
also stay where it is, up to a relation that keeps the winning region. A win in the first graph is
then a win of all that it stands for.
-/

namespace NuzlockeSolver.AndOrGraph

variable {K L A : Type*}

/-- Nodes of `G` stand for nodes of `H` on the nodes `N`. -/
structure Simulates (G : AndOrGraph K A) (H : AndOrGraph L A) (N : Set K) (stands : L → K → Prop)
    (same : L → L → Prop) : Prop where
  won : ∀ {s k}, k ∈ N → stands s k → G.won k → H.won s
  live : ∀ {s k}, k ∈ N → stands s k → G.live k → H.live s
  inside : ∀ {k a}, k ∈ N → G.live k → G.usable k a → G.next k a ⊆ N
  move : ∀ {s k a}, k ∈ N → stands s k → G.live k → G.usable k a →
    (H.usable s a ∧ ∀ t ∈ H.next s a, ∃ c ∈ G.next k a, stands t c) ∨
      ∃ t, same t s ∧ ∃ c ∈ G.next k a, stands t c
  same : ∀ {t s}, same t s → t ∈ H.region → s ∈ H.region

theorem Simulates.region {G : AndOrGraph K A} {H : AndOrGraph L A} {N : Set K}
    {stands : L → K → Prop} {same : L → L → Prop} (h : Simulates G H N stands same) {k : K}
    (hk : k ∈ G.region) (hN : k ∈ N) {s : L} (hs : stands s k) : s ∈ H.region := by
  change G.Winning ∅ k at hk
  induction hk generalizing s with
  | won hw => exact .won (h.won hN hs hw)
  | move _ hl ha _ ih =>
    have hinside := h.inside hN hl ha
    cases h.move hN hs hl ha with
    | inl hmove =>
      refine .move (Set.notMem_empty s) (h.live hN hs hl) hmove.1 fun t ht => ?_
      obtain ⟨c, hc, hstands⟩ := hmove.2 t ht
      exact ih c hc (hinside hc) hstands
    | inr hstay =>
      obtain ⟨t, hsame, c, hc, hstands⟩ := hstay
      exact h.same hsame (ih c hc (hinside hc) hstands)

end NuzlockeSolver.AndOrGraph
