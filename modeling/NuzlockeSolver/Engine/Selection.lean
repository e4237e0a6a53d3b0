import Mathlib.Data.Prod.Lex
import NuzlockeSolver.Engine.TurnOrder

/-!
# The mover that is selected

Sort keys are compared as a lexicographic order, and the selection takes the first greatest entry
out of the queue. An ordering that settles a speed tie only retells the ties: of the entries that
are level in priority and speed the one acts that it names first.
-/

namespace NuzlockeSolver

namespace Engine

section Order

/-- Sort keys in the order in which `greater` compares them. -/
def SortKey.rank (k : SortKey) : ℤ ×ₗ ℤ ×ₗ ℤ := toLex (k.movePriority, toLex (k.speedKey, k.tie))

theorem greater_iff {k o : SortKey} : k.greater o = true ↔ o.rank < k.rank := by
  rw [SortKey.rank, SortKey.rank, Prod.Lex.toLex_lt_toLex, Prod.Lex.toLex_lt_toLex]
  unfold SortKey.greater
  split
  · rename_i h
    simp [Ne.symm h]
  · rename_i h
    rw [not_ne_iff] at h
    split
    · rename_i h'
      simp [h, Ne.symm h']
    · rename_i h'
      rw [not_ne_iff] at h'
      simp [h, h']

variable {α : Type*} [LinearOrder α]

theorem foldl_firstMax (key : Nat → α) (n : Nat) :
    ∀ best, best = (List.range (n + 1)).foldl (fun b i => if key b < key i then i else b) 0 →
      best ≤ n ∧ (∀ i < best, key i < key best) ∧ ∀ i ≤ n, key i ≤ key best := by
  induction n with
  | zero =>
    intro best h
    have hbest : best = 0 := by simpa using h
    subst hbest
    refine ⟨Nat.le_refl _, fun i hi => absurd hi (Nat.not_lt_zero i), fun i hi => ?_⟩
    rw [Nat.le_zero.mp hi]
  | succ n ih =>
    intro best h
    obtain ⟨hle, hbefore, hmax⟩ := ih _ rfl
    rw [List.range_succ, List.foldl_append, List.foldl_cons, List.foldl_nil] at h
    split at h
    · rename_i hlt
      subst h
      refine ⟨Nat.le_refl _, fun i hi => ?_, fun i hi => ?_⟩
      · exact lt_of_le_of_lt (hmax i (Nat.le_of_lt_succ hi)) hlt
      · rcases Nat.le_succ_iff.mp hi with hi | rfl
        · exact le_of_lt (lt_of_le_of_lt (hmax i hi) hlt)
        · exact le_refl _
    · rename_i hge
      subst h
      refine ⟨Nat.le_succ_of_le hle, hbefore, fun i hi => ?_⟩
      rcases Nat.le_succ_iff.mp hi with hi | rfl
      · exact hmax i hi
      · exact le_of_not_gt hge

end Order

section Take

variable {moves : List MoveData} {state : BattleState}

def rankOf (moves : List MoveData) (state : BattleState) (e : Entry) : ℤ ×ₗ ℤ ×ₗ ℤ :=
  (actionSortKey moves state e).rank

structure TakesFirst (moves : List MoveData) (state : BattleState) (queue : List Entry)
    (r : Entry × List Entry) (before after : List Entry) : Prop where
  queue_eq : queue = before ++ r.1 :: after
  left : r.2 = before ++ after
  before_lt : ∀ x ∈ before, rankOf moves state x < rankOf moves state r.1
  after_le : ∀ x ∈ after, rankOf moves state x ≤ rankOf moves state r.1

variable (moves state) in
theorem takesFirst_takeBest {queue : List Entry} (h : queue ≠ []) :
    ∃ before after, TakesFirst moves state queue (takeBest moves state queue) before after := by
  obtain ⟨n, hn⟩ := Nat.exists_eq_succ_of_ne_zero (mt List.length_eq_zero_iff.mp h)
  have hbest : bestIdx moves state queue = (List.range (n + 1)).foldl (fun b i =>
      if rankOf moves state (queue.getD b default) <
          rankOf moves state (queue.getD i default) then i
      else b) 0 := by
    unfold bestIdx
    rw [hn]
    simp only [greater_iff, rankOf]
    rfl
  obtain ⟨hle, hbefore, hmax⟩ :=
    foldl_firstMax (fun i => rankOf moves state (queue.getD i default)) n _ hbest
  have hlt : bestIdx moves state queue < queue.length := by omega
  have hget {i : Nat} (hi : i < queue.length) : queue.getD i default = queue[i] := by
    rw [List.getD_eq_getElem?_getD, List.getElem?_eq_getElem hi, Option.getD_some]
  refine ⟨queue.take (bestIdx moves state queue), queue.drop (bestIdx moves state queue + 1),
    ?_, ?_, ?_, ?_⟩
  · rw [takeBest, hget hlt, List.getElem_cons_drop, List.take_append_drop]
  · rw [takeBest, List.eraseIdx_eq_take_drop_succ]
  · intro x hx
    obtain ⟨i, hi, rfl⟩ := List.mem_take_iff_getElem.mp hx
    have hib : i < bestIdx moves state queue := by omega
    have := hbefore i hib
    rwa [hget (by omega)] at this
  · intro x hx
    obtain ⟨i, hi, rfl⟩ := List.mem_drop_iff_getElem.mp hx
    have := hmax (bestIdx moves state queue + 1 + i) (by omega)
    rwa [hget (by omega)] at this

theorem TakesFirst.le {queue before after : List Entry} {r : Entry × List Entry}
    (h : TakesFirst moves state queue r before after) :
    ∀ x ∈ r.2, rankOf moves state x ≤ rankOf moves state r.1 := by
  intro x hx
  rw [h.left] at hx
  rcases List.mem_append.mp hx with hx | hx
  · exact le_of_lt (h.before_lt x hx)
  · exact h.after_le x hx

theorem TakesFirst.length {queue before after : List Entry} {r : Entry × List Entry}
    (h : TakesFirst moves state queue r before after) : r.2.length + 1 = queue.length := by
  rw [h.left, h.queue_eq, List.length_append, List.length_append, List.length_cons]
  omega

end Take

section Ordering

variable {moves : List MoveData} {state : BattleState} {order : List (Int × Int)}

def Entry.slot (e : Entry) : Int × Int := (e.sideIdx, e.sourceSlot)

def retie (order : List (Int × Int)) (e : Entry) : Entry :=
  { e with tie := order.length - order.idxOf e.slot }

theorem speedTieValue_eq_ok {e : Entry} {tie : Int}
    (h : speedTieValueFromOrder order e.sideIdx e.sourceSlot = .ok tie) :
    e.slot ∈ order ∧ tie = order.length - order.idxOf e.slot := by
  unfold speedTieValueFromOrder at h
  split at h
  · rename_i pos hpos
    cases h
    obtain ⟨hlt, hget, -⟩ := List.findIdx?_eq_some_iff_getElem.mp hpos
    have hslot : order[pos] = e.slot := of_decide_eq_true hget
    refine ⟨hslot ▸ List.getElem_mem hlt, ?_⟩
    have hidx : order.idxOf e.slot = pos := by
      obtain ⟨-, hfind⟩ := List.findIdx?_eq_some_iff_findIdx_eq.mp hpos
      have hsame : (fun x => x == e.slot) = fun x => decide (x = (e.sideIdx, e.sourceSlot)) :=
        funext fun x => beq_eq_decide x e.slot
      rw [List.idxOf, hsame, hfind]
    rw [hidx]
  · cases h

theorem mapM_eq_ok {pending settled : List Entry}
    (h : (pending.mapM fun (e : Entry) => do
      let tie ← speedTieValueFromOrder order e.sideIdx e.sourceSlot
      pure { e with tie := tie }) = Except.ok settled) :
    (∀ e ∈ pending, e.slot ∈ order) ∧ settled = pending.map (retie order) := by
  induction pending generalizing settled with
  | nil =>
    cases h
    exact ⟨fun e he => absurd he List.not_mem_nil, rfl⟩
  | cons e pending ih =>
    rw [List.mapM_cons] at h
    obtain ⟨e', he', hrest⟩ := bind_eq_ok.mp h
    obtain ⟨tie, htie, hpure⟩ := bind_eq_ok.mp he'
    obtain ⟨settled', hsettled, hcons⟩ := bind_eq_ok.mp hrest
    obtain ⟨hmem, rfl⟩ := speedTieValue_eq_ok htie
    obtain ⟨hall, rfl⟩ := ih hsettled
    cases hpure
    cases hcons
    exact ⟨List.forall_mem_cons.mpr ⟨hmem, hall⟩, rfl⟩

def Level (moves : List MoveData) (state : BattleState) (x y : Entry) : Prop :=
  (actionSortKey moves state x).topTwoEqual (actionSortKey moves state y) = true

/-- Of two moves that are level the one with the smaller tie value has the smaller rank. -/
theorem rankOf_lt {x y : Entry} (hx : x.action.kind = actionMove)
    (hy : y.action.kind = actionMove) (hlevel : Level moves state x y) (htie : y.tie < x.tie) :
    rankOf moves state y < rankOf moves state x := by
  have hkey {e : Entry} (he : e.action.kind = actionMove) :
      (actionSortKey moves state e).tie = e.tie := by
    unfold actionSortKey
    rw [if_neg (by rw [he]; decide)]
  simp only [Level, SortKey.topTwoEqual, Bool.and_eq_true, beq_iff_eq] at hlevel
  rw [rankOf, rankOf, ← greater_iff]
  simp only [SortKey.greater, hlevel.1, hlevel.2, hkey hx, hkey hy]
  simpa using htie

structure Honours (moves : List MoveData) (state : BattleState) (order : List (Int × Int))
    (r : Entry × List Entry) : Prop where
  named : ∀ e ∈ r.1 :: r.2, e.slot ∈ order
  first : r.1.action.kind = actionMove → ∀ x ∈ r.2, x.action.kind = actionMove →
    Level moves state r.1 x → order.idxOf r.1.slot ≤ order.idxOf x.slot

theorem honours_of_takesFirst {pending before after : List Entry} {r : Entry × List Entry}
    (hnamed : ∀ e ∈ pending, e.slot ∈ order)
    (h : TakesFirst moves state (pending.map (retie order)) r before after) :
    Honours moves state order r := by
  have hretied : ∀ e ∈ r.1 :: r.2, ∃ e' ∈ pending, retie order e' = e := by
    intro e he
    apply List.mem_map.mp
    rw [h.queue_eq]
    rw [h.left] at he
    simp only [List.mem_cons, List.mem_append] at he ⊢
    tauto
  have htie : ∀ e ∈ r.1 :: r.2, e.tie = order.length - order.idxOf e.slot := by
    intro e he
    obtain ⟨e', -, rfl⟩ := hretied e he
    rfl
  refine ⟨fun e he => ?_, fun hmove x hx hxmove hlevel => ?_⟩
  · obtain ⟨e', he', rfl⟩ := hretied e he
    exact hnamed e' he'
  · by_contra hlt
    have hlevel' : Level moves state x r.1 := by
      simp only [Level, SortKey.topTwoEqual, Bool.and_eq_true, beq_iff_eq] at hlevel ⊢
      exact ⟨hlevel.1.symm, hlevel.2.symm⟩
    have hrank := rankOf_lt hxmove hmove hlevel' (by
      rw [htie x (List.mem_cons_of_mem _ hx), htie r.1 List.mem_cons_self]
      omega)
    exact absurd (h.le x hx) (not_le_of_gt hrank)

/-- The mover is the first entry of the greatest rank and all others stay in the queue. The ties
are the ones the entries were built with, or those of an ordering: then no move that is level with
the mover's is named before it. -/
def SelectionLaw (moves : List MoveData) (state : BattleState) (pending : List Entry)
    (r : Entry × List Entry) : Prop :=
  ∃ settled before after, TakesFirst moves state settled r before after ∧
    (hasSpeedTie moves state pending = false ∧ settled = pending ∨
      ∃ order, settled = pending.map (retie order) ∧ Honours moves state order r)

theorem returns_ordered (a : OracleAnswer) {pending : List Entry} (h : pending ≠ []) :
    ((TurnScript.ofExcept (applyOrder a pending)).bind fun settled =>
      (.done (takeBest moves state settled) : TurnScript (Entry × List Entry))).Returns
        (SelectionLaw moves state pending) := by
  cases happly : applyOrder a pending with
  | error f => exact .fail
  | ok settled =>
    obtain ⟨hall, rfl⟩ := mapM_eq_ok happly
    obtain ⟨before, after, htakes⟩ := takesFirst_takeBest moves state (mt List.map_eq_nil_iff.mp h)
    exact .done ⟨_, before, after, htakes, .inr ⟨_, rfl, honours_of_takesFirst hall htakes⟩⟩

theorem cppSelectNextAction_law (moves : List MoveData) (state : BattleState)
    (pending : List Entry) :
    (cppSelectNextAction moves state pending).Returns (SelectionLaw moves state pending) := by
  unfold cppSelectNextAction
  extract_lets ordered
  split
  · exact .fail
  · rename_i hempty
    have hne : pending ≠ [] := by simpa using hempty
    split
    · exact .ask fun a => returns_ordered a hne
    · rename_i htie
      refine .offer fun a => ?_
      cases a with
      | some a => exact returns_ordered a hne
      | none =>
        obtain ⟨before, after, htakes⟩ := takesFirst_takeBest moves state hne
        exact .done ⟨pending, before, after, htakes, .inl ⟨by simpa using htie, rfl⟩⟩

end Ordering

end Engine

end NuzlockeSolver
