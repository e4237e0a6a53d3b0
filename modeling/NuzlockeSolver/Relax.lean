import Mathlib.Logic.Function.Basic
import Mathlib.Order.Nat
import Mathlib.Tactic.Common

/-!
# Relaxation of a graph in topological order

A table holds for each vertex the least cost found so far and the vertex it was reached from. When
the vertices are visited in an order that the edges follow, and an edge only replaces a strictly
greater cost, the table ends with the least cost of each vertex, and its parents lead back along
the canonical walk: a cheapest one whose every step comes from the earliest vertex that a cheapest
walk can come from.
-/

namespace NuzlockeSolver.Relax

structure Cell (V : Type) where
  cost : Nat
  parent : Option V
deriving DecidableEq

structure Table (V : Type) where
  inf : Nat
  cells : List (V × Cell V)

variable {V : Type} [DecidableEq V]

namespace Table

def get (table : Table V) (u : V) : Cell V := (table.cells.lookup u).getD ⟨table.inf, none⟩

def set (table : Table V) (u : V) (cell : Cell V) : Table V :=
  { table with cells := (u, cell) :: table.cells }

@[simp] theorem get_set_self (table : Table V) (u : V) (cell : Cell V) :
    (table.set u cell).get u = cell := by
  simp [get, set]

@[simp] theorem get_set_of_ne (table : Table V) {u v : V} (h : v ≠ u) (cell : Cell V) :
    (table.set u cell).get v = table.get v := by
  have hne : (v == u) = false := beq_eq_false_iff_ne.2 h
  simp [get, set, List.lookup_cons, hne]

@[simp] theorem get_nil (inf : Nat) (u : V) : (Table.mk inf []).get u = ⟨inf, none⟩ := rfl

end Table

def relax (v : V) (cost : Nat) (table : Table V) (edge : V × Nat) : Table V :=
  if cost + edge.2 < (table.get edge.1).cost then table.set edge.1 ⟨cost + edge.2, some v⟩
  else table

def visit (inf : Nat) (edges : V → List (V × Nat)) (table : Table V) (v : V) : Table V :=
  if (table.get v).cost = inf then table else (edges v).foldl (relax v (table.get v).cost) table

def start (inf : Nat) (source : V) : Table V :=
  Table.set ⟨inf, []⟩ source ⟨0, none⟩

def run (inf : Nat) (edges : V → List (V × Nat)) (source : V) (order : List V) : Table V :=
  order.foldl (visit inf edges) (start inf source)

/-- The vertices from `u` back to one without a parent. -/
def trace (table : Table V) : Nat → V → List V
  | 0, u => [u]
  | n + 1, u =>
    match (table.get u).parent with
    | none => [u]
    | some v => u :: trace table n v

/-- A walk from the source, its last vertex first. -/
inductive Walk (edges : V → List (V × Nat)) (source : V) : List V → Nat → Prop
  | source : Walk edges source [source] 0
  | step {u v : V} {p : List V} {c w : Nat} :
      Walk edges source (v :: p) c → (u, w) ∈ edges v → Walk edges source (u :: v :: p) (c + w)

inductive Canonical (edges : V → List (V × Nat)) (before : V → V → Prop) (source : V) :
    List V → Nat → Prop
  | source : Canonical edges before source [source] 0
  | step {u v : V} {p : List V} {c w : Nat} :
      Canonical edges before source (v :: p) c → (u, w) ∈ edges v →
      (∀ q d, Walk edges source (u :: q) d → c + w ≤ d) →
      (∀ v' q d w', Walk edges source (v' :: q) d → (u, w') ∈ edges v' → d + w' = c + w →
        v' = v ∨ before v v') →
      Canonical edges before source (u :: v :: p) (c + w)

variable {inf : Nat} {edges : V → List (V × Nat)} {before : V → V → Prop} {source : V}

omit [DecidableEq V] in
theorem Canonical.walk {p : List V} {c : Nat} (h : Canonical edges before source p c) :
    Walk edges source p c := by
  induction h with
  | source => exact .source
  | step _ hedge _ _ ih => exact .step ih hedge

omit [DecidableEq V] in
theorem Canonical.unique [IsStrictOrder V before] (hsource : ∀ v w, (source, w) ∉ edges v)
    {p q : List V} {c d : Nat} {u : V} (hp : Canonical edges before source (u :: p) c)
    (hq : Canonical edges before source (u :: q) d) : p = q ∧ c = d := by
  generalize hl : u :: p = l at hp
  induction hp generalizing u p q d with
  | source =>
    obtain ⟨rfl, rfl⟩ := List.cons.inj hl
    cases hq with
    | source => exact ⟨rfl, rfl⟩
    | step _ hedge _ _ => exact absurd hedge (hsource _ _)
  | @step u' v p' c' w hp hedge hleast hfirst ih =>
    obtain ⟨rfl, rfl⟩ := List.cons.inj hl
    cases hq with
    | source => exact absurd hedge (hsource _ _)
    | @step _ v' q' c'' w' hq hedge' hleast' hfirst' =>
      have hcost : c' + w = c'' + w' :=
        le_antisymm (hleast _ _ (hq.walk.step hedge')) (hleast' _ _ (hp.walk.step hedge))
      have hv : v' = v := by
        rcases hfirst v' q' c'' w' hq.walk hedge' hcost.symm with h | h
        · exact h
        rcases hfirst' v p' c' w hp.walk hedge hcost with h' | h'
        · exact h'.symm
        · exact absurd (trans_of before h h') (irrefl v)
      subst hv
      obtain ⟨rfl, rfl⟩ := ih hq rfl
      exact ⟨rfl, hcost⟩

omit [DecidableEq V] in
/-- A canonical walk is a cheapest one, and the first of these when they are compared from their
last vertex on. -/
theorem Canonical.first (hsource : ∀ v w, (source, w) ∉ edges v) {p q : List V} {c d : Nat} {u : V}
    (hp : Canonical edges before source (u :: p) c) (hq : Walk edges source (u :: q) d) :
    c ≤ d ∧ (d = c → q = p ∨ List.Lex before p q) := by
  generalize hl : u :: p = l at hp
  induction hp generalizing u p q d with
  | source =>
    obtain ⟨rfl, rfl⟩ := List.cons.inj hl
    cases hq with
    | source => exact ⟨le_rfl, fun _ => .inl rfl⟩
    | step _ hedge => exact absurd hedge (hsource _ _)
  | @step u' v p' c' w hp hedge hleast hfirst ih =>
    obtain ⟨rfl, rfl⟩ := List.cons.inj hl
    refine ⟨hleast q d hq, fun heq => ?_⟩
    cases hq with
    | source => exact absurd hedge (hsource _ _)
    | @step _ v' q' d' w' hq hedge' =>
      rcases hfirst v' q' d' w' hq hedge' heq with rfl | hbefore
      · obtain ⟨hle, hsame⟩ := ih hq rfl
        have hw := hleast _ _ (hp.walk.step hedge')
        rcases hsame (by omega) with rfl | hlex
        · exact .inl rfl
        · exact .inr (.cons hlex)
      · exact .inr (.rel hbefore)

structure Pushed (x : V) (cost : Nat) (es : List (V × Nat)) (table table' : Table V) (u : V) :
    Prop where
  mono : (table'.get u).cost ≤ (table.get u).cost
  le : ∀ w, (u, w) ∈ es → (table'.get u).cost ≤ cost + w
  origin : table'.get u = table.get u ∨
    ∃ w, (u, w) ∈ es ∧ table'.get u = ⟨cost + w, some x⟩ ∧ cost + w < (table.get u).cost

theorem relax_pushed (x : V) (cost : Nat) (table : Table V) (e : V × Nat) (u : V) :
    Pushed x cost [e] table (relax x cost table e) u := by
  obtain ⟨y, w⟩ := e
  unfold relax
  split
  next hlt =>
    by_cases hu : u = y
    · subst hu
      refine ⟨?_, fun w' hw => ?_, .inr ⟨w, List.mem_singleton.2 rfl, ?_, hlt⟩⟩
      · simpa using hlt.le
      · obtain ⟨-, rfl⟩ := Prod.mk.inj (List.mem_singleton.1 hw)
        simp
      · simp
    · refine ⟨by simp [hu], fun w' hw => ?_, .inl (by simp [hu])⟩
      exact absurd (Prod.mk.inj (List.mem_singleton.1 hw)).1 hu
  next hle =>
    refine ⟨le_rfl, fun w' hw => ?_, .inl rfl⟩
    obtain ⟨rfl, rfl⟩ := Prod.mk.inj (List.mem_singleton.1 hw)
    exact Nat.le_of_not_lt hle

theorem foldl_relax_pushed (x : V) (cost : Nat) (es : List (V × Nat)) (table : Table V)
    (u : V) : Pushed x cost es table (es.foldl (relax x cost) table) u := by
  induction es generalizing table with
  | nil => exact ⟨le_rfl, fun w hw => absurd hw List.not_mem_nil, .inl rfl⟩
  | cons e es ih =>
    have h₁ := relax_pushed x cost table e u
    have h₂ := ih (relax x cost table e)
    refine ⟨h₂.mono.trans h₁.mono, fun w hw => ?_, ?_⟩
    · rcases List.mem_cons.1 hw with rfl | hw
      · exact h₂.mono.trans (h₁.le w (List.mem_singleton.2 rfl))
      · exact h₂.le w hw
    · rcases h₂.origin with h | ⟨w, hw, h, hlt⟩
      · rcases h₁.origin with h' | ⟨w, hw, h', hlt⟩
        · exact .inl (h.trans h')
        · exact .inr ⟨w, List.mem_cons.2 (.inl (List.mem_singleton.1 hw)), h.trans h', hlt⟩
      · exact .inr ⟨w, List.mem_cons_of_mem _ hw, h, hlt.trans_le h₁.mono⟩

theorem visit_pushed (table : Table V) (x u : V) (hinf : (table.get u).cost ≤ inf) :
    Pushed x (table.get x).cost (edges x) table (visit inf edges table x) u := by
  unfold visit
  split
  next hx => exact ⟨le_rfl, fun w _ => by omega, .inl rfl⟩
  next => exact foldl_relax_pushed x _ (edges x) table u

/-- The cell of a vertex after the visits of `done`. -/
structure Pulled (inf : Nat) (edges : V → List (V × Nat)) (before : V → V → Prop) (done : List V)
    (table : Table V) (u : V) : Prop where
  bounded : (table.get u).cost ≤ inf
  le : ∀ v ∈ done, ∀ w, (u, w) ∈ edges v → (table.get u).cost ≤ (table.get v).cost + w
  origin : table.get u = ⟨inf, none⟩ ∨ ∃ v ∈ done, ∃ w, (u, w) ∈ edges v ∧
    table.get u = ⟨(table.get v).cost + w, some v⟩ ∧ (table.get v).cost + w < inf ∧
    ∀ v' ∈ done, ∀ w', (u, w') ∈ edges v' → (table.get v').cost + w' = (table.get v).cost + w →
      v' = v ∨ before v v'

structure Settled (inf : Nat) (edges : V → List (V × Nat)) (before : V → V → Prop) (source : V)
    (done : List V) (table : Table V) : Prop where
  rooted : table.get source = ⟨0, none⟩
  pulled : ∀ u, u ≠ source → Pulled inf edges before done table u

theorem settled_start : Settled inf edges before source [] (start inf source) := by
  refine ⟨by simp [start], fun u hu => ⟨?_, fun v hv => absurd hv List.not_mem_nil, .inl ?_⟩⟩ <;>
    simp [start, hu]

theorem visit_of_not_edge {table : Table V} {x u : V} (hinf : (table.get u).cost ≤ inf)
    (h : ∀ w, (u, w) ∉ edges x) : (visit inf edges table x).get u = table.get u := by
  rcases (@visit_pushed V _ inf edges table x u hinf).origin with h' | ⟨w, hw, -⟩
  · exact h'
  · exact absurd hw (h w)

section Order

variable [IsStrictOrder V before] (hforward : ∀ v u w, (u, w) ∈ edges v → before v u)
  (hsource : ∀ v w, (source, w) ∉ edges v)

include hforward hsource

theorem Settled.visit {done : List V} {table : Table V} {x : V}
    (h : Settled inf edges before source done table) (hx : ∀ v ∈ done, before v x) :
    Settled inf edges before source (done ++ [x]) (visit inf edges table x) := by
  have hcost (u : V) : (table.get u).cost ≤ inf := by
    by_cases hu : u = source
    · subst hu
      rw [h.rooted]
      exact Nat.zero_le _
    · exact (h.pulled u hu).bounded
  -- The edges out of `x` lead to none of the vertices visited so far.
  have hkeep : ∀ v ∈ done ++ [x], (Relax.visit inf edges table x).get v = table.get v := by
    refine fun v hv => visit_of_not_edge (hcost v) fun w hw => ?_
    have hxv := hforward x v w hw
    rcases List.mem_append.1 hv with hv | hv
    · exact irrefl v (trans_of before (hx v hv) hxv)
    · rw [List.mem_singleton.1 hv] at hxv
      exact irrefl x hxv
  have hkeepx := hkeep x (List.mem_append_right _ (List.mem_singleton.2 rfl))
  refine ⟨?_, fun u hu => ?_⟩
  · rw [visit_of_not_edge (hcost source) (hsource x), h.rooted]
  have hp := @visit_pushed V _ inf edges table x u (hcost u)
  have hold := h.pulled u hu
  refine ⟨hp.mono.trans (hcost u), fun v hv w hw => ?_, ?_⟩
  · rw [hkeep v hv]
    rcases List.mem_append.1 hv with hv | hv
    · exact hp.mono.trans (hold.le v hv w hw)
    · rw [List.mem_singleton.1 hv] at hw ⊢
      exact hp.le w hw
  rcases hp.origin with hsame | ⟨w, hw, hnew, hlt⟩
  · rcases hold.origin with hidle | ⟨v, hv, w, hw, hcell, hfin, hfirst⟩
    · exact .inl (hsame.trans hidle)
    · refine .inr ⟨v, List.mem_append_left _ hv, w, hw, ?_⟩
      rw [hkeep v (List.mem_append_left _ hv)]
      refine ⟨hsame.trans hcell, hfin, fun v' hv' w' hw' heq => ?_⟩
      rw [hkeep v' hv'] at heq
      rcases List.mem_append.1 hv' with hv' | hv'
      · exact hfirst v' hv' w' hw' heq
      · exact .inr (List.mem_singleton.1 hv' ▸ hx v hv)
  · refine .inr ⟨x, List.mem_append_right _ (List.mem_singleton.2 rfl), w, hw, ?_⟩
    rw [hkeepx]
    refine ⟨hnew, hlt.trans_le (hcost u), fun v' hv' w' hw' heq => ?_⟩
    rw [hkeep v' hv'] at heq
    rcases List.mem_append.1 hv' with hv' | hv'
    · have := hold.le v' hv' w' hw'
      omega
    · exact .inl (List.mem_singleton.1 hv')

theorem Settled.foldl {done rest : List V} {table : Table V}
    (h : Settled inf edges before source done table) (horder : (done ++ rest).Pairwise before) :
    Settled inf edges before source (done ++ rest) (rest.foldl (Relax.visit inf edges) table) := by
  induction rest generalizing done table with
  | nil => simpa using h
  | cons x rest ih =>
    have hx : ∀ v ∈ done, before v x := fun v hv =>
      (List.pairwise_append.1 horder).2.2 v hv x List.mem_cons_self
    have hnext := ih (h.visit hforward hsource hx) (by simpa using horder)
    simpa using hnext

theorem settled_run {order : List V} (horder : order.Pairwise before) :
    Settled inf edges before source order (run inf edges source order) :=
  settled_start.foldl hforward hsource horder

end Order

namespace Settled

variable {order : List V} {table : Table V}
  (h : Settled inf edges before source order table)
  (hsource : ∀ v w, (source, w) ∉ edges v)
  (horder : ∀ v u w, (u, w) ∈ edges v → v ∈ order)

include h hsource horder

theorem cost_le {u : V} {p : List V} {c : Nat} (hwalk : Walk edges source (u :: p) c) :
    (table.get u).cost ≤ c := by
  generalize hl : u :: p = l at hwalk
  induction hwalk generalizing u p with
  | source =>
    obtain ⟨rfl, rfl⟩ := List.cons.inj hl
    simp [h.rooted]
  | @step u' v p' c w hwalk hedge ih =>
    obtain ⟨rfl, rfl⟩ := List.cons.inj hl
    have hu : u ≠ source := by
      rintro rfl
      exact hsource _ _ hedge
    have hle := (h.pulled u hu).le v (horder v u w hedge) w hedge
    have hv := ih rfl
    omega

theorem canonical [IsStrictOrder V before] (hwf : WellFounded before)
    (hforward : ∀ v u w, (u, w) ∈ edges v → before v u) (u : V) (hu : (table.get u).cost < inf) :
    ∃ p, Canonical edges before source (u :: p) (table.get u).cost ∧
      ∀ n, p.length ≤ n → trace table n u = u :: p := by
  induction u using hwf.induction with
  | _ u ih =>
  by_cases hus : u = source
  · subst hus
    rw [h.rooted]
    refine ⟨[], .source, fun n _ => ?_⟩
    cases n with
    | zero => rfl
    | succ n => simp [trace, h.rooted]
  rcases (h.pulled u hus).origin with hidle | ⟨v, hv, w, hw, hcell, hfin, hfirst⟩
  · rw [hidle] at hu
    exact absurd hu (lt_irrefl _)
  obtain ⟨p, hp, htrace⟩ := ih v (hforward v u w hw) (by omega)
  have hcost : (table.get u).cost = (table.get v).cost + w := by rw [hcell]
  refine ⟨v :: p, ?_, fun n hn => ?_⟩
  · rw [hcost]
    refine .step hp hw (fun q d hq => ?_) fun v' q d w' hq hw' heq => ?_
    · rw [← hcost]
      exact h.cost_le hsource horder hq
    · -- The walk through `v'` is a cheapest one, so the cell of `v'` has the cost of its walk.
      have hv' := h.cost_le hsource horder hq
      have hle := (h.pulled u hus).le v' (horder v' u w' hw') w' hw'
      exact hfirst v' (horder v' u w' hw') w' hw' (by omega)
  · cases n with
    | zero => exact absurd hn (by simp)
    | succ n =>
      simp only [trace, hcell]
      rw [htrace n (by simpa using hn)]

theorem eq_of_canonical [IsStrictOrder V before] (hwf : WellFounded before)
    (hforward : ∀ v u w, (u, w) ∈ edges v → before v u) {u : V} {p : List V} {c : Nat}
    (hp : Canonical edges before source (u :: p) c) (hc : c < inf) :
    (table.get u).cost = c ∧ ∀ n, p.length ≤ n → trace table n u = u :: p := by
  have hu := (h.cost_le hsource horder hp.walk).trans_lt hc
  obtain ⟨q, hq, htrace⟩ := h.canonical hsource horder hwf hforward u hu
  obtain ⟨rfl, rfl⟩ := hp.unique hsource hq
  exact ⟨rfl, htrace⟩

end Settled

end NuzlockeSolver.Relax
