import Mathlib.Data.Set.Insert
import Mathlib.Order.Bounds.Basic
import Mathlib.Logic.Relation

/-!
# Finite plays on AND-OR graphs

At a live node one player picks a usable action and every successor must then be won. The
winning region is taken relative to a set of nodes the play may not pass through: depth-first
searches that refuse to re-enter the nodes on their stack decide exactly such relative regions.
A certificate is a winning play whose choices are read off one policy.
-/

namespace NuzlockeSolver

/-- Nodes `K`, actions `A`; `won` nodes are goals and `live` nodes offer the usable actions. -/
structure AndOrGraph (K A : Type*) where
  won : K → Prop
  live : K → Prop
  usable : K → A → Prop
  next : K → A → Set K
  live_not_won : ∀ {k}, live k → ¬ won k

namespace AndOrGraph

variable {K A : Type*} (G : AndOrGraph K A)

/-- `G.Winning X k`: some finite play from `k` wins without moving from a node of `X`. -/
inductive Winning (X : Set K) : K → Prop
  | won {k : K} (hk : G.won k) : Winning X k
  | move {k : K} {a : A} (hX : k ∉ X) (hl : G.live k) (ha : G.usable k a)
      (hc : ∀ c ∈ G.next k a, Winning X c) : Winning X k

structure Closed (S : Set K) : Prop where
  won : ∀ k, G.won k → k ∈ S
  move : ∀ k a, G.live k → G.usable k a → G.next k a ⊆ S → k ∈ S

def region : Set K := {k | G.Winning ∅ k}

theorem region_closed : G.Closed G.region where
  won _ hk := .won hk
  move _ _ hl ha hc := .move (Set.notMem_empty _) hl ha hc

theorem region_subset {S : Set K} (hS : G.Closed S) : G.region ⊆ S := by
  intro k hk
  induction hk with
  | won hk => exact hS.won _ hk
  | move _ hl ha _ ih => exact hS.move _ _ hl ha ih

theorem region_isLeast : IsLeast {S | G.Closed S} G.region :=
  ⟨G.region_closed, fun _ hS => G.region_subset hS⟩

variable {G}

theorem Winning.anti {X Y : Set K} (hXY : X ⊆ Y) {k : K} (h : G.Winning Y k) :
    G.Winning X k := by
  induction h with
  | won hk => exact .won hk
  | move hX hl ha _ ih => exact .move (fun hk => hX (hXY hk)) hl ha ih

theorem not_winning_of_dead {X : Set K} {k : K} (hw : ¬ G.won k) (hl : ¬ G.live k) :
    ¬ G.Winning X k := by
  intro h
  cases h with
  | won hk => exact hw hk
  | move _ hl' => exact hl hl'

theorem Winning.exists_move {X : Set K} {k : K} (h : G.Winning X k) (hl : G.live k) :
    k ∉ X ∧ ∃ a, G.usable k a ∧ ∀ c ∈ G.next k a, G.Winning X c := by
  cases h with
  | won hk => exact absurd hk (G.live_not_won hl)
  | move hX _ ha hc => exact ⟨hX, _, ha, hc⟩

theorem not_winning_of_mem {X : Set K} {k : K} (hl : G.live k) (hk : k ∈ X) :
    ¬ G.Winning X k :=
  fun h => (h.exists_move hl).1 hk

/-- A winning play either never returns to `k`, or shows a move of `k` that never returns. -/
theorem Winning.avoid_or {X : Set K} {k c : K} (h : G.Winning X c) :
    G.Winning (insert k X) c ∨
      ∃ a, G.usable k a ∧ ∀ d ∈ G.next k a, G.Winning (insert k X) d := by
  induction h with
  | won hc => exact .inl (.won hc)
  | @move c a hX hl ha _ ih =>
    by_cases hall : ∀ d ∈ G.next c a, G.Winning (insert k X) d
    · by_cases hck : c = k
      · subst hck
        exact .inr ⟨a, ha, hall⟩
      · refine .inl (.move ?_ hl ha hall)
        simp [hck, hX]
    · push Not at hall
      obtain ⟨d, hd, hnd⟩ := hall
      exact .inr ((ih d hd).resolve_left hnd)

/-- The step a stack-based search relies on: the children may be explored with `k` forbidden. -/
theorem Winning.exists_move_avoiding {X : Set K} {k : K} (h : G.Winning X k) (hl : G.live k) :
    ∃ a, G.usable k a ∧ ∀ c ∈ G.next k a, G.Winning (insert k X) c := by
  rcases h.avoid_or (k := k) with hk | hk
  · exact absurd hk (not_winning_of_mem hl (Set.mem_insert _ _))
  · exact hk

section Policies

variable (G)

/-- A winning play outside `X` in which every move is the one the policy `P` records. -/
inductive Cert (P : K → Option A) (X : Set K) : K → Prop
  | won {k : K} (hk : G.won k) : Cert P X k
  | move {k : K} {a : A} (hX : k ∉ X) (hl : G.live k) (hP : P k = some a) (ha : G.usable k a)
      (hc : ∀ c ∈ G.next k a, Cert P X c) : Cert P X k

def Follow (P : K → Option A) (k c : K) : Prop :=
  G.live k ∧ ∃ a, P k = some a ∧ c ∈ G.next k a

variable {G} {P Q : K → Option A} {X Y : Set K} {k c : K}

theorem Cert.winning (h : G.Cert P X k) : G.Winning X k := by
  induction h with
  | won hk => exact .won hk
  | move hX hl _ ha _ ih => exact .move hX hl ha ih

theorem Cert.anti (hXY : X ⊆ Y) (h : G.Cert P Y k) : G.Cert P X k := by
  induction h with
  | won hk => exact .won hk
  | move hX hl hP ha _ ih => exact .move (fun hk => hX (hXY hk)) hl hP ha ih

theorem Cert.congr (hPQ : ∀ k, k ∉ X → (P k).isSome → Q k = P k) (h : G.Cert P X k) :
    G.Cert Q X k := by
  induction h with
  | won hk => exact .won hk
  | move hX hl hP ha _ ih =>
    exact .move hX hl (by rw [hPQ _ hX (by simp [hP]), hP]) ha ih

theorem Cert.update_of_mem [DecidableEq K] (hc : c ∈ X) (o : Option A) (h : G.Cert P X k) :
    G.Cert (Function.update P c o) X k := by
  refine h.congr fun m hm _ => ?_
  have hne : m ≠ c := fun he => hm (he ▸ hc)
  simp [hne]

theorem Cert.update_self [DecidableEq K] {a : A} (hcX : c ∉ X) (hl : G.live c)
    (ha : G.usable c a) (hnew : ∀ d ∈ G.next c a, G.Cert P (insert c X) d) :
    G.Cert (Function.update P c (some a)) X c := by
  refine .move hcX hl (by simp) ha fun d hd => ?_
  exact ((hnew d hd).update_of_mem (Set.mem_insert c X) _).anti (Set.subset_insert c X)

/-- Overwriting the entry of `c` keeps every certificate, if the new entry is itself certified
by successors that stay away from `c`. -/
theorem Cert.update [DecidableEq K] {a : A} (hcX : c ∉ X) (hl : G.live c) (ha : G.usable c a)
    (hnew : ∀ d ∈ G.next c a, G.Cert P (insert c X) d) (h : G.Cert P X k) :
    G.Cert (Function.update P c (some a)) X k := by
  induction h with
  | won hk => exact .won hk
  | @move m b hX hl' hP hb _ ih =>
    by_cases hm : m = c
    · subst hm
      exact Cert.update_self hcX hl ha hnew
    · exact .move hX hl' (by simpa [hm] using hP) hb ih

theorem Cert.of_follow (h : G.Cert P X k) (hf : G.Follow P k c) : G.Cert P X c := by
  obtain ⟨hl, a, hP, hc⟩ := hf
  cases h with
  | won hk => exact absurd hk (G.live_not_won hl)
  | move _ _ hP' _ hall =>
    rw [hP, Option.some.injEq] at hP'
    exact hall c (hP' ▸ hc)

theorem Cert.of_reachable (h : G.Cert P X k) (hr : Relation.ReflTransGen (G.Follow P) k c) :
    G.Cert P X c := by
  induction hr with
  | refl => exact h
  | tail _ hf ih => exact ih.of_follow hf

theorem Cert.won_or_entry (h : G.Cert P X k) :
    G.won k ∨ G.live k ∧ ∃ a, P k = some a ∧ G.usable k a := by
  cases h with
  | won hk => exact .inl hk
  | move _ hl hP ha => exact .inr ⟨hl, _, hP, ha⟩

theorem Cert.acc (h : G.Cert P X k) : Acc (fun c k => G.Follow P k c) k := by
  induction h with
  | won hk => exact ⟨_, fun c hf => absurd hk (G.live_not_won hf.1)⟩
  | move _ _ hP _ _ ih =>
    refine ⟨_, fun c ⟨_, b, hb, hc⟩ => ih c ?_⟩
    rw [hP, Option.some.injEq] at hb
    exact hb ▸ hc

theorem Cert.acyclic (h : G.Cert P X k) (hr : Relation.ReflTransGen (G.Follow P) k c) :
    ¬ Relation.TransGen (G.Follow P) c c := by
  have hacc := (h.of_reachable hr).acc.transGen
  intro hcyc
  induction hacc with
  | intro c _ ih => exact ih c (Relation.transGen_swap.2 hcyc) (hr.trans hcyc.to_reflTransGen) hcyc

end Policies

end AndOrGraph

end NuzlockeSolver
