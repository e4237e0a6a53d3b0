import NuzlockeSolver.Bucket.PpCanon
import Mathlib.Data.Int.Order.Basic
import Mathlib.Logic.Relation
import Mathlib.Order.Bounds.Basic
import Mathlib.Data.List.Nodup
import Mathlib.Data.List.Perm.Subperm
import Mathlib.Tactic.Ring

/-!
# The largest consumption over all lines of a certificate

The audit's recursion visits each node once and raises on a node that is still on the path. On a
graph without a reachable cycle its result is, slot by slot, the maximum over all lines from the
root to a leaf; on a graph with one it raises.
-/

namespace NuzlockeSolver

namespace PpConsumption

def keys (c : PpConsumption) : List PpSlotKey := c.map Prod.fst

structure Tidy (c : PpConsumption) : Prop where
  nodup : c.keys.Nodup
  nonneg : ∀ p ∈ c, 0 ≤ p.2

theorem get_of_notMem {c : PpConsumption} {slot : PpSlotKey} (h : slot ∉ c.keys) :
    c.get slot = 0 := by
  have hnone : c.lookup slot = none := by
    rw [List.lookup_eq_none_iff]
    intro p hp
    simp only [bne_iff_ne]
    rintro rfl
    exact h (List.mem_map_of_mem hp)
  rw [get, hnone, Option.getD_none]

theorem get_cons (s : PpSlotKey) (v : Int) (c : PpConsumption) (slot : PpSlotKey) :
    get ((s, v) :: c) slot = if slot = s then v else c.get slot := by
  by_cases h : slot = s
  · simp [get, h]
  · have hb : (slot == s) = false := by simpa using h
    simp [get, List.lookup_cons, hb, h]

theorem get_set (c : PpConsumption) (s : PpSlotKey) (v : Int) (slot : PpSlotKey) :
    (c.set s v).get slot = if slot = s then v else c.get slot := by
  induction c with
  | nil => rw [set, get_cons]
  | cons p c ih =>
    obtain ⟨t, w⟩ := p
    rw [set]
    split
    · rename_i hts
      rw [get_cons, get_cons, hts]
      split <;> rfl
    · rename_i hts
      rw [get_cons, get_cons, ih]
      by_cases h : slot = s
      · rw [if_pos h, if_pos h, if_neg (fun ht => hts (ht.symm.trans h))]
      · rw [if_neg h, if_neg h]

theorem mem_keys_set {c : PpConsumption} {s : PpSlotKey} {v : Int} {slot : PpSlotKey} :
    slot ∈ (c.set s v).keys ↔ slot = s ∨ slot ∈ c.keys := by
  induction c with
  | nil => simp [set, keys]
  | cons p c ih =>
    obtain ⟨t, w⟩ := p
    rw [set]
    split
    · rename_i hts
      simp [keys, hts]
    · simp only [keys, List.map_cons, List.mem_cons] at ih ⊢
      rw [ih]
      tauto

theorem Tidy.set {c : PpConsumption} (h : c.Tidy) {s : PpSlotKey} {v : Int} (hv : 0 ≤ v) :
    (c.set s v).Tidy := by
  obtain ⟨hnd, hnn⟩ := h
  induction c with
  | nil =>
    refine ⟨List.nodup_singleton _, fun p hp => ?_⟩
    rw [List.mem_singleton.1 hp]
    exact hv
  | cons p c ih =>
    obtain ⟨t, w⟩ := p
    rw [PpConsumption.set]
    split
    · refine ⟨hnd, fun p hp => ?_⟩
      rcases List.mem_cons.1 hp with rfl | hp
      · exact hv
      · exact hnn p (List.mem_cons_of_mem _ hp)
    · rename_i hts
      have hrest := ih (List.nodup_cons.1 hnd).2 fun p hp => hnn p (List.mem_cons_of_mem _ hp)
      refine ⟨List.nodup_cons.2 ⟨fun hmem => ?_, hrest.nodup⟩, fun p hp => ?_⟩
      · rcases mem_keys_set.1 hmem with h | h
        · exact hts h
        · exact (List.nodup_cons.1 hnd).1 h
      · rcases List.mem_cons.1 hp with rfl | hp
        · exact hnn _ List.mem_cons_self
        · exact hrest.nonneg p hp

theorem Tidy.tail {p : PpSlotKey × Int} {c : PpConsumption} (h : Tidy (p :: c)) : c.Tidy :=
  ⟨(List.nodup_cons.1 h.nodup).2, fun q hq => h.nonneg q (List.mem_cons_of_mem _ hq)⟩

theorem tidy_nil : Tidy [] := ⟨List.nodup_nil, fun _ h => nomatch h⟩

theorem tidy_single {slot : PpSlotKey} {v : Int} :
    Tidy (if v > 0 then [(slot, v)] else []) := by
  split
  · rename_i hv
    refine ⟨List.nodup_singleton _, fun p hp => ?_⟩
    rw [List.mem_singleton.1 hp]
    exact hv.le
  · exact tidy_nil

theorem get_single (s : PpSlotKey) (v : Int) (slot : PpSlotKey) :
    get (if v > 0 then [(s, v)] else []) slot = if slot = s then max v 0 else 0 := by
  split
  · rename_i hv
    rw [get_cons, max_eq_left hv.le]
    rfl
  · rename_i hv
    rw [max_eq_right (not_lt.1 hv), ite_self]
    rfl

theorem Tidy.get_nonneg {c : PpConsumption} (h : c.Tidy) (slot : PpSlotKey) : 0 ≤ c.get slot := by
  rw [get]
  cases hl : c.lookup slot with
  | none => exact le_rfl
  | some v => exact h.nonneg _ (mem_of_lookup hl)

theorem addInto_spec {dst src : PpConsumption} (hdst : dst.Tidy) (hsrc : src.Tidy) :
    (dst.addInto src).Tidy ∧ ∀ slot, (dst.addInto src).get slot = dst.get slot + src.get slot := by
  induction src generalizing dst with
  | nil => exact ⟨hdst, fun slot => (add_zero _).symm⟩
  | cons p src ih =>
    obtain ⟨s, v⟩ := p
    have hv : 0 ≤ v := hsrc.nonneg (s, v) List.mem_cons_self
    have hs : get src s = 0 := get_of_notMem (List.nodup_cons.1 hsrc.nodup).1
    have hset : (dst.set s (dst.get s + v)).Tidy :=
      hdst.set (add_nonneg (hdst.get_nonneg s) hv)
    obtain ⟨htidy, hget⟩ := ih hset hsrc.tail
    refine ⟨htidy, fun slot => ?_⟩
    refine (hget slot).trans ?_
    rw [get_set, get_cons]
    split
    · rename_i h
      rw [h, hs, add_zero]
    · rfl

theorem maxInto_spec {dst src : PpConsumption} (hdst : dst.Tidy) (hsrc : src.Tidy) :
    (dst.maxInto src).Tidy ∧
      ∀ slot, (dst.maxInto src).get slot = max (dst.get slot) (src.get slot) := by
  induction src generalizing dst with
  | nil => exact ⟨hdst, fun slot => (max_eq_left (hdst.get_nonneg slot)).symm⟩
  | cons p src ih =>
    obtain ⟨s, v⟩ := p
    have hv : 0 ≤ v := hsrc.nonneg (s, v) List.mem_cons_self
    have hs : get src s = 0 := get_of_notMem (List.nodup_cons.1 hsrc.nodup).1
    -- one entry raises its own slot and leaves the others
    have hstep : ∃ dst' : PpConsumption, dst'.Tidy ∧
        dst.maxInto ((s, v) :: src) = dst'.maxInto src ∧
        ∀ slot, dst'.get slot = if slot = s then max (dst.get s) v else dst.get slot := by
      have hunfold : dst.maxInto ((s, v) :: src) = ((dst.lookup s).elim (dst.set s v) fun w =>
          if v > w then dst.set s v else dst).maxInto src := by
        cases hl : dst.lookup s with
        | none => rw [maxInto, List.foldl_cons, hl]; rfl
        | some w => rw [maxInto, List.foldl_cons, hl]; rfl
      have hraised : ∀ {w : Int}, dst.get s = w → w ≤ v → ∀ slot,
          (dst.set s v).get slot = if slot = s then max (dst.get s) v else dst.get slot := by
        intro w hw hle slot
        rw [get_set, hw, max_eq_right hle]
      cases hl : dst.lookup s with
      | none =>
        have hw : dst.get s = 0 := by rw [get, hl, Option.getD_none]
        exact ⟨_, hdst.set hv, by rw [hunfold, hl, Option.elim_none], hraised hw hv⟩
      | some w =>
        have hw : dst.get s = w := by rw [get, hl, Option.getD_some]
        by_cases hgt : v > w
        · exact ⟨_, hdst.set hv, by rw [hunfold, hl, Option.elim_some, if_pos hgt], hraised hw hgt.le⟩
        · refine ⟨dst, hdst, by rw [hunfold, hl, Option.elim_some, if_neg hgt], fun slot => ?_⟩
          rw [hw, max_eq_left (not_lt.1 hgt)]
          split
          · rename_i h
            rw [h, hw]
          · rfl
    obtain ⟨dst', hdst', heq, hget'⟩ := hstep
    obtain ⟨htidy, hget⟩ := ih hdst' hsrc.tail
    rw [heq]
    refine ⟨htidy, fun slot => ?_⟩
    rw [hget, hget', get_cons]
    split
    · rename_i h
      rw [h, hs, max_eq_left (le_max_of_le_left (hdst.get_nonneg s))]
    · rfl

end PpConsumption

def slotCost (used : PpSlotKey) (cost : Int) (slot : PpSlotKey) : Int :=
  if slot = used then max cost 0 else 0

theorem slotCost_nonneg (used : PpSlotKey) (cost : Int) (slot : PpSlotKey) :
    0 ≤ slotCost used cost slot := by
  unfold slotCost
  split
  · exact le_max_right _ _
  · exact le_rfl

namespace PpCertNode

def ownCost (node : PpCertNode) (slot : PpSlotKey) : Int :=
  slotCost node.playerSlot node.playerCost slot

end PpCertNode

namespace PpCertGraph

variable (g : PpCertGraph)

/-- Every child index of a node is the index of a node, and so is the root. -/
structure WellFormed : Prop where
  child_lt : ∀ {i : Nat} {node : PpCertNode}, g.nodes[i]? = some node →
    ∀ e ∈ node.children, 0 ≤ e.child → e.child.toNat < g.nodes.length
  root_nonneg : 0 ≤ g.root
  root_lt : g.root.toNat < g.nodes.length

def Child (i j : Nat) : Prop :=
  ∃ node, g.nodes[i]? = some node ∧ ∃ e ∈ node.children, 0 ≤ e.child ∧ e.child.toNat = j

/-- The summed cost to a slot along some line from the node to a leaf. -/
inductive LineCost (slot : PpSlotKey) : Nat → Int → Prop
  | childless {i node} (hi : g.nodes[i]? = some node) (hnone : node.children = []) :
    LineCost slot i (node.ownCost slot)
  | leaf {i node e} (hi : g.nodes[i]? = some node) (he : e ∈ node.children)
      (hterm : e.child < 0) :
    LineCost slot i (node.ownCost slot + slotCost e.oppSlot e.oppCost slot)
  | step {i node e v} (hi : g.nodes[i]? = some node) (he : e ∈ node.children)
      (hchild : 0 ≤ e.child) (hrest : LineCost slot e.child.toNat v) :
    LineCost slot i (node.ownCost slot + (slotCost e.oppSlot e.oppCost slot + v))

open Relation in
def CyclicFrom (i : Nat) : Prop := ∃ j, ReflTransGen g.Child i j ∧ TransGen g.Child j j

/-- The memo of a node: the largest cost to each slot, below which every node has a line and none
lies on a cycle. -/
structure Settled (i : Nat) (memo : PpConsumption) : Prop where
  tidy : memo.Tidy
  greatest : ∀ slot, IsGreatest {v | g.LineCost slot i v} (memo.get slot)
  acyclic : ¬ g.CyclicFrom i
  ends : ∀ j, Relation.ReflTransGen g.Child i j → ∀ slot, ∃ v, g.LineCost slot j v

variable {g}

theorem LineCost.nonneg {slot : PpSlotKey} {i : Nat} {v : Int} (h : g.LineCost slot i v) :
    0 ≤ v := by
  induction h with
  | childless => exact slotCost_nonneg _ _ _
  | leaf => exact add_nonneg (slotCost_nonneg _ _ _) (slotCost_nonneg _ _ _)
  | step _ _ _ _ ih =>
    exact add_nonneg (slotCost_nonneg _ _ _) (add_nonneg (slotCost_nonneg _ _ _) ih)

/-- The colours of a search whose path is `path`, with right memos. -/
structure Inv (g : PpCertGraph) (path : List Nat) (color : Visiting) : Prop where
  onPath : ∀ i, color.lookup i = some .onPath ↔ i ∈ path
  settled : ∀ i memo, color.lookup i = some (.done memo) → g.Settled i memo

def cycleFault : Fault := .logicError "pp_max_consumption: cycle in certificate DAG"

def VisitOk (g : PpCertGraph) (path : List Nat) (i : Nat) :
    Except Fault (PpConsumption × Visiting) → Prop
  | .ok r => g.Settled i r.1 ∧ g.Inv path r.2
  | .error e => e = cycleFault ∧ g.CyclicFrom i

structure EdgesBest (g : PpCertGraph) (es : List PpCertEdge) (best : PpConsumption) : Prop where
  tidy : best.Tidy
  attained : ∀ slot, best.get slot = 0 ∨ ∃ e ∈ es,
    (e.child < 0 ∧ best.get slot = slotCost e.oppSlot e.oppCost slot) ∨
    0 ≤ e.child ∧ ∃ v, g.LineCost slot e.child.toNat v ∧
      best.get slot = slotCost e.oppSlot e.oppCost slot + v
  leaf_le : ∀ e ∈ es, e.child < 0 → ∀ slot, slotCost e.oppSlot e.oppCost slot ≤ best.get slot
  step_le : ∀ e ∈ es, 0 ≤ e.child → ∀ slot v, g.LineCost slot e.child.toNat v →
    slotCost e.oppSlot e.oppCost slot + v ≤ best.get slot
  acyclic : ∀ e ∈ es, 0 ≤ e.child → ¬ g.CyclicFrom e.child.toNat
  ends : ∀ e ∈ es, 0 ≤ e.child → ∀ j, Relation.ReflTransGen g.Child e.child.toNat j →
    ∀ slot, ∃ v, g.LineCost slot j v

theorem edgesBest_nil : EdgesBest g [] [] :=
  ⟨PpConsumption.tidy_nil, fun _ => Or.inl rfl, by simp, by simp, by simp, by simp⟩

theorem EdgesBest.leaf {es : List PpCertEdge} {best : PpConsumption} (h : EdgesBest g es best)
    {e : PpCertEdge} (hterm : e.child < 0) :
    EdgesBest g (es ++ [e])
      (best.maxInto (if e.oppCost > 0 then [(e.oppSlot, e.oppCost)] else [])) := by
  obtain ⟨htidy, hget⟩ :=
    PpConsumption.maxInto_spec h.tidy (@PpConsumption.tidy_single e.oppSlot e.oppCost)
  have hget' : ∀ slot, (best.maxInto (if e.oppCost > 0 then [(e.oppSlot, e.oppCost)] else [])).get
      slot = max (best.get slot) (slotCost e.oppSlot e.oppCost slot) := by
    intro slot
    rw [hget, PpConsumption.get_single]
    rfl
  refine ⟨htidy, fun slot => ?_, fun e' he' hlt slot => ?_, fun e' he' hc slot v hv => ?_,
    fun e' he' hc => ?_, fun e' he' hc => ?_⟩
  · rw [hget']
    rcases max_choice (best.get slot) (slotCost e.oppSlot e.oppCost slot) with hm | hm
    · rw [hm]
      refine (h.attained slot).imp_right ?_
      rintro ⟨e', he', hcase⟩
      exact ⟨e', List.mem_append_left _ he', hcase⟩
    · rw [hm]
      exact Or.inr ⟨e, by simp, Or.inl ⟨hterm, rfl⟩⟩
  · rw [hget']
    rcases List.mem_append.1 he' with he' | he'
    · exact le_max_of_le_left (h.leaf_le e' he' hlt slot)
    · rw [List.mem_singleton.1 he']
      exact le_max_right _ _
  all_goals
    have hold : e' ∈ es := by
      rcases List.mem_append.1 he' with he' | he'
      · exact he'
      · rw [List.mem_singleton.1 he'] at hc
        omega
  · rw [hget']
    exact le_max_of_le_left (h.step_le e' hold hc slot v hv)
  · exact h.acyclic e' hold hc
  · exact h.ends e' hold hc

theorem EdgesBest.step {es : List PpCertEdge} {best : PpConsumption} (h : EdgesBest g es best)
    {e : PpCertEdge} (hchild : 0 ≤ e.child) {sub : PpConsumption}
    (hsub : g.Settled e.child.toNat sub) :
    EdgesBest g (es ++ [e])
      (best.maxInto (PpConsumption.addInto
        (if e.oppCost > 0 then [(e.oppSlot, e.oppCost)] else []) sub)) := by
  obtain ⟨hbranch, hadd⟩ :=
    PpConsumption.addInto_spec (@PpConsumption.tidy_single e.oppSlot e.oppCost) hsub.tidy
  obtain ⟨htidy, hget⟩ := PpConsumption.maxInto_spec h.tidy hbranch
  have hget' : ∀ slot, (best.maxInto (PpConsumption.addInto
      (if e.oppCost > 0 then [(e.oppSlot, e.oppCost)] else []) sub)).get slot =
        max (best.get slot) (slotCost e.oppSlot e.oppCost slot + sub.get slot) := by
    intro slot
    rw [hget, hadd, PpConsumption.get_single]
    rfl
  have hnew : ∀ {e'}, e' ∈ es ++ [e] → e' ∈ es ∨ e' = e := by
    intro e' he'
    exact (List.mem_append.1 he').imp_right List.mem_singleton.1
  refine ⟨htidy, fun slot => ?_, fun e' he' hlt slot => ?_, fun e' he' hc slot v hv => ?_,
    fun e' he' hc => ?_, fun e' he' hc => ?_⟩
  · rw [hget']
    rcases max_choice (best.get slot) (slotCost e.oppSlot e.oppCost slot + sub.get slot)
      with hm | hm
    · rw [hm]
      refine (h.attained slot).imp_right ?_
      rintro ⟨e', he', hcase⟩
      exact ⟨e', List.mem_append_left _ he', hcase⟩
    · rw [hm]
      exact Or.inr ⟨e, by simp, Or.inr ⟨hchild, _, (hsub.greatest slot).1, rfl⟩⟩
  · rw [hget']
    rcases hnew he' with he' | rfl
    · exact le_max_of_le_left (h.leaf_le e' he' hlt slot)
    · omega
  · rw [hget']
    rcases hnew he' with he' | rfl
    · exact le_max_of_le_left (h.step_le e' he' hc slot v hv)
    · have := (hsub.greatest slot).2 hv
      exact le_max_of_le_right (by omega)
  · rcases hnew he' with he' | rfl
    · exact h.acyclic e' he' hc
    · exact hsub.acyclic
  · rcases hnew he' with he' | rfl
    · exact h.ends e' he' hc
    · exact hsub.ends

open Relation in
theorem CyclicFrom.head {i j : Nat} (h : g.Child i j) (hj : g.CyclicFrom j) : g.CyclicFrom i := by
  obtain ⟨k, hjk, hcyc⟩ := hj
  exact ⟨k, hjk.head h, hcyc⟩

theorem settled_of_edges {i : Nat} {node : PpCertNode} (hi : g.nodes[i]? = some node)
    {best : PpConsumption} (h : EdgesBest g node.children best) :
    g.Settled i (PpConsumption.addInto
      (if node.playerCost > 0 then [(node.playerSlot, node.playerCost)] else []) best) := by
  obtain ⟨htidy, hadd⟩ :=
    PpConsumption.addInto_spec (@PpConsumption.tidy_single node.playerSlot node.playerCost) h.tidy
  have hget : ∀ slot, (PpConsumption.addInto
      (if node.playerCost > 0 then [(node.playerSlot, node.playerCost)] else []) best).get slot =
        node.ownCost slot + best.get slot := by
    intro slot
    rw [hadd, PpConsumption.get_single]
    rfl
  have hinv : ∀ {node' : PpCertNode}, g.nodes[i]? = some node' → node' = node := by
    intro node' hi'
    exact Option.some.inj (hi'.symm.trans hi)
  have hline : ∀ slot, g.LineCost slot i (node.ownCost slot + best.get slot) := by
    intro slot
    rcases h.attained slot with h0 | ⟨e, he, ⟨hterm, hv⟩ | ⟨hc, v, hv, heq⟩⟩
    · cases hch : node.children with
      | nil =>
        rw [h0, add_zero]
        exact .childless hi hch
      | cons e es =>
        -- the best is nothing, so this edge and what follows it cost nothing either
        have he : e ∈ node.children := hch ▸ List.mem_cons_self
        have hcost := slotCost_nonneg e.oppSlot e.oppCost slot
        by_cases hterm : e.child < 0
        · have := h.leaf_le e he hterm slot
          have heq : slotCost e.oppSlot e.oppCost slot = best.get slot := by omega
          exact heq ▸ .leaf hi he hterm
        · obtain ⟨v, hv⟩ := h.ends e he (not_lt.1 hterm) _ .refl slot
          have hle := h.step_le e he (not_lt.1 hterm) slot v hv
          have hnn := hv.nonneg
          have heq : slotCost e.oppSlot e.oppCost slot + v = best.get slot := by omega
          exact heq ▸ .step hi he (not_lt.1 hterm) hv
    · rw [hv]
      exact .leaf hi he hterm
    · rw [heq]
      exact .step hi he hc hv
  refine ⟨htidy, fun slot => ⟨?_, ?_⟩, ?_, ?_⟩
  · rw [hget]
    exact hline slot
  · rintro v hv
    rw [hget]
    cases hv with
    | childless hi' _ =>
      obtain rfl := hinv hi'
      have := h.tidy.get_nonneg slot
      omega
    | leaf hi' he hterm =>
      obtain rfl := hinv hi'
      have := h.leaf_le _ he hterm slot
      omega
    | step hi' he hc hrest =>
      obtain rfl := hinv hi'
      have := h.step_le _ he hc slot _ hrest
      omega
  · rintro ⟨j, hij, hcyc⟩
    -- a cycle reached from the node is reached from one of its children
    have hchild : ∃ k, g.Child i k ∧ Relation.ReflTransGen g.Child k j := by
      rcases hij.cases_head with rfl | hk
      · obtain ⟨k, hik, hki⟩ := Relation.TransGen.head'_iff.1 hcyc
        exact ⟨k, hik, hki⟩
      · exact hk
    obtain ⟨k, ⟨node', hi', e, he, hc, rfl⟩, hkj⟩ := hchild
    obtain rfl := hinv hi'
    exact h.acyclic e he hc ⟨j, hkj, hcyc⟩
  · intro j hij slot
    rcases hij.cases_head with rfl | ⟨k, ⟨node', hi', e, he, hc, rfl⟩, hkj⟩
    · exact ⟨_, hline slot⟩
    · obtain rfl := hinv hi'
      exact h.ends e he hc j hkj slot

section Search

variable {visit : Int → Visiting → Except Fault (PpConsumption × Visiting)} {path : List Nat}

/-- The edges of a node, one after the other, given what a visit below the node returns. -/
theorem visitEdges_spec {es done : List PpCertEdge} {best : PpConsumption} {color : Visiting}
    (hvisit : ∀ e ∈ es, 0 ≤ e.child → ∀ color, g.Inv path color →
      VisitOk g path e.child.toNat (visit e.child color))
    (hbest : EdgesBest g done best) (hcolor : g.Inv path color) :
    match visitEdges visit es best color with
    | .ok r => EdgesBest g (done ++ es) r.1 ∧ g.Inv path r.2
    | .error err => err = cycleFault ∧ ∃ e ∈ es, 0 ≤ e.child ∧ g.CyclicFrom e.child.toNat := by
  induction es generalizing done best color with
  | nil =>
    rw [visitEdges, List.append_nil]
    exact ⟨hbest, hcolor⟩
  | cons e es ih =>
    have hrest : ∀ e' ∈ es, 0 ≤ e'.child → ∀ color, g.Inv path color →
        VisitOk g path e'.child.toNat (visit e'.child color) :=
      fun e' he' => hvisit e' (List.mem_cons_of_mem _ he')
    have hlift : ∀ {x : Except Fault (PpConsumption × Visiting)},
        (match x with
        | .ok r => EdgesBest g ((done ++ [e]) ++ es) r.1 ∧ g.Inv path r.2
        | .error err => err = cycleFault ∧ ∃ e ∈ es, 0 ≤ e.child ∧ g.CyclicFrom e.child.toNat) →
        match x with
        | .ok r => EdgesBest g (done ++ e :: es) r.1 ∧ g.Inv path r.2
        | .error err =>
          err = cycleFault ∧ ∃ e' ∈ e :: es, 0 ≤ e'.child ∧ g.CyclicFrom e'.child.toNat := by
      intro x hx
      cases x with
      | ok r => simpa using hx
      | error err =>
        obtain ⟨herr, e', he', hc⟩ := hx
        exact ⟨herr, e', List.mem_cons_of_mem _ he', hc⟩
    rw [visitEdges]
    by_cases hchild : e.child ≥ 0
    · simp only [if_pos hchild]
      have hv := hvisit e List.mem_cons_self hchild color hcolor
      cases hx : visit e.child color with
      | error err =>
        rw [hx] at hv
        exact ⟨hv.1, e, List.mem_cons_self, hchild, hv.2⟩
      | ok r =>
        rw [hx] at hv
        rw [ok_bind]
        exact hlift (ih hrest (hbest.step hchild hv.1) hv.2)
    · simp only [if_neg hchild]
      exact hlift (ih hrest (hbest.leaf (not_le.1 hchild)) hcolor)

/-- A visit with fuel for the nodes that are not on the path settles its node or finds a cycle,
by induction on the fuel. -/
theorem visitNode_spec (hg : g.WellFormed) {fuel : Nat} {i : Int} {color : Visiting}
    (hi : i.toNat < g.nodes.length) (hnodup : path.Nodup)
    (hpath : ∀ p ∈ path, p < g.nodes.length ∧ Relation.TransGen g.Child p i.toNat)
    (hcolor : g.Inv path color) (hfuel : g.nodes.length < fuel + path.length) :
    VisitOk g path i.toNat (visitNode g fuel i color) := by
  induction fuel generalizing path i color with
  | zero =>
    -- the path would hold more nodes than there are
    have hsub : path ⊆ List.range g.nodes.length :=
      fun p hp => List.mem_range.2 (hpath p hp).1
    have hle := (List.subperm_of_subset hnodup hsub).length_le
    rw [List.length_range] at hle
    omega
  | succ fuel ih =>
    rw [visitNode]
    split
    · rename_i memo hl
      exact ⟨hcolor.settled _ _ hl, hcolor⟩
    · rename_i hl
      exact ⟨rfl, i.toNat, .refl, (hpath _ ((hcolor.onPath _).1 hl)).2⟩
    · rename_i hdone hon
      have hnew : i.toNat ∉ path := fun h => hon ((hcolor.onPath _).2 h)
      obtain ⟨node, hnode⟩ : ∃ node, g.nodes[i.toNat]? = some node :=
        ⟨_, List.getElem?_eq_getElem hi⟩
      simp only [hnode]
      have hon' : g.Inv (i.toNat :: path) ((i.toNat, .onPath) :: color) := by
        constructor
        · intro k
          by_cases hk : k = i.toNat
          · simp [hk]
          · have hb : (k == i.toNat) = false := by simpa using hk
            simp [List.lookup_cons, hb, hk, hcolor.onPath]
        · intro k memo hk
          by_cases hki : k = i.toNat
          · simp [hki] at hk
          · have hb : (k == i.toNat) = false := by simpa using hki
            simp only [List.lookup_cons, hb] at hk
            exact hcolor.settled k memo hk
      have hvisit : ∀ e ∈ node.children, 0 ≤ e.child → ∀ color,
          g.Inv (i.toNat :: path) color →
            VisitOk g (i.toNat :: path) e.child.toNat (visitNode g fuel e.child color) := by
        intro e he hc color hcolor
        have hedge : g.Child i.toNat e.child.toNat := ⟨node, hnode, e, he, hc, rfl⟩
        apply ih (hg.child_lt hnode e he hc) (List.nodup_cons.2 ⟨hnew, hnodup⟩) _ hcolor
        · rw [List.length_cons]
          omega
        · intro p hp
          rcases List.mem_cons.1 hp with rfl | hp
          · exact ⟨hi, .single hedge⟩
          · exact ⟨(hpath p hp).1, (hpath p hp).2.tail hedge⟩
      have hedges := visitEdges_spec hvisit edgesBest_nil hon'
      cases hx : visitEdges (visitNode g fuel) node.children [] ((i.toNat, .onPath) :: color) with
      | error err =>
        rw [hx] at hedges
        obtain ⟨herr, e, he, hc, hcyc⟩ := hedges
        exact ⟨herr, hcyc.head ⟨node, hnode, e, he, hc, rfl⟩⟩
      | ok r =>
        rw [hx, List.nil_append] at hedges
        have hsettled := settled_of_edges hnode hedges.1
        refine ⟨hsettled, ?_, ?_⟩
        · intro k
          by_cases hk : k = i.toNat
          · simp [hk, hnew]
          · have hb : (k == i.toNat) = false := by simpa using hk
            simp only [List.lookup_cons, hb]
            rw [hedges.2.onPath]
            simp [hk]
        · intro k memo hk
          by_cases hki : k = i.toNat
          · simp only [hki, List.lookup_cons_self, Option.some.injEq, Color.done.injEq] at hk
            rw [hki, ← hk]
            exact hsettled
          · have hb : (k == i.toNat) = false := by simpa using hki
            simp only [List.lookup_cons, hb] at hk
            exact hedges.2.settled k memo hk

end Search

theorem ppMaxConsumption_visitOk (hg : g.WellFormed) :
    match ppMaxConsumption g with
    | .ok c => g.Settled g.root.toNat c
    | .error e => e = cycleFault ∧ g.CyclicFrom g.root.toNat := by
  have hinv : g.Inv [] [] := ⟨fun i => by simp, fun i memo h => by simp at h⟩
  have hne : g.nodes.isEmpty = false := by
    rw [List.isEmpty_eq_false_iff]
    rintro h
    have := hg.root_lt
    rw [h] at this
    exact absurd this (Nat.not_lt_zero _)
  have hv := visitNode_spec hg hg.root_lt List.nodup_nil (fun p hp => nomatch hp) hinv
    (Nat.lt_succ_self g.nodes.length)
  rw [ppMaxConsumption, if_neg (by simp [hne])]
  cases hx : visitNode g (g.nodes.length + 1) g.root [] with
  | error e =>
    rw [hx] at hv
    exact hv
  | ok r =>
    rw [hx] at hv
    exact hv.1

theorem ppMaxConsumption_acyclic (hg : g.WellFormed) (hac : ¬ g.CyclicFrom g.root.toNat) :
    ∃ c, ppMaxConsumption g = .ok c ∧
      ∀ slot, IsGreatest {v | g.LineCost slot g.root.toNat v} (c.get slot) := by
  have h := ppMaxConsumption_visitOk hg
  cases hx : ppMaxConsumption g with
  | error e =>
    rw [hx] at h
    exact absurd h.2 hac
  | ok c =>
    rw [hx] at h
    exact ⟨c, rfl, h.greatest⟩

theorem ppMaxConsumption_cyclic (hg : g.WellFormed) (hcyc : g.CyclicFrom g.root.toNat) :
    ppMaxConsumption g = .error cycleFault := by
  have h := ppMaxConsumption_visitOk hg
  cases hx : ppMaxConsumption g with
  | error e =>
    rw [hx] at h
    rw [h.1]
  | ok c =>
    rw [hx] at h
    exact absurd hcyc h.acyclic

end PpCertGraph

end NuzlockeSolver
