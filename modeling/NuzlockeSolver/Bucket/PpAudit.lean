import NuzlockeSolver.Bucket.PpConsumption
import NuzlockeSolver.Bucket.WinCertify
import Mathlib.Algebra.Order.BigOperators.Group.List

/-!
# The PP audit and the engine's PP updates

A line of play follows the certificate turn by turn; each turn executes the player's action and
the opponent's. What an execution does to the PP is the engine's: the use is paid from the slot
that takes effect, Pressure adds one, a Leppa Berry restores an empty slot, and Transform and
Imposter overwrite the slots of the mon that copies.

The audit bounds the PP paid. It does not know the moves that overwrite PP, and it reads Pressure
at the start of the turn.
-/

namespace NuzlockeSolver

abbrev PpTable := PpSlotKey → Int

namespace PpTable

def consumePp (T : PpTable) (slot : PpSlotKey) (extraPp : Int) : PpTable :=
  Function.update T slot (max 0 (T slot - 1 - extraPp))

/-- `leppa` is what the berry would restore, if it can be eaten. -/
def checkLeppaBerry (T : PpTable) (slot : PpSlotKey) (leppa : Option Nat) : PpTable :=
  match leppa with
  | none => T
  | some restore => if T slot ≠ 0 then T else Function.update T slot (restore : Int)

def copyMoves (T : PpTable) (side mon target : Int) : PpTable := fun k =>
  if k.side = side ∧ k.mon = mon ∧ 0 ≤ k.slot ∧ k.slot < 4 then
    min 5 (T ⟨1 - side, target, k.slot⟩)
  else T k

end PpTable

structure ActionExec where
  /-- the acting mon, and the slot in effect after a choice lock -/
  mon : Int
  effectiveSlot : Int
  blocked : Bool := false
  naturalGiftFails : Bool := false
  twoTurnRelease : Bool := false
  hitsOpponent : Bool := true
  opposingPressure : Bool := false
  leppa : Option Nat := none
  /-- the target of a Transform, or of an Imposter that enters -/
  copies : Option Int := none

namespace ActionExec

def slot (x : ActionExec) (side : Int) : PpSlotKey := ⟨side, x.mon, x.effectiveSlot⟩

def pressureExtra (x : ActionExec) : Int := if x.hitsOpponent && x.opposingPressure then 1 else 0

def applyCopy (x : ActionExec) (side : Int) (T : PpTable) : PpTable :=
  match x.copies with
  | none => T
  | some target => T.copyMoves side x.mon target

/-- The PP part of executing an action; the action of kind 0 is a move. -/
def run (x : ActionExec) (side : Int) (a : ExecAction) (T : PpTable) : PpTable :=
  if a.kind ≠ 0 then x.applyCopy side T
  else if x.blocked then T
  else if x.naturalGiftFails then
    if a.moveOverride = -1 ∧ 0 ≤ x.effectiveSlot then T.consumePp (x.slot side) 0 else T
  else if ¬ x.twoTurnRelease ∧ 0 ≤ x.effectiveSlot then
    x.applyCopy side
      ((T.consumePp (x.slot side) x.pressureExtra).checkLeppaBerry (x.slot side) x.leppa)
  else x.applyCopy side T

end ActionExec

/-- One turn of a line: a node of the certificate and one of its edges, what the builder of the
certificate read at the start of the turn, and the execution of both actions. -/
structure LineTurn where
  node : PpCertNode
  edge : PpCertEdge
  plActive : Int
  opActive : Int
  playerAction : ExecAction
  oppAction : ExecAction
  plPressure : Bool := false
  opPressure : Bool := false
  playerFirst : Bool := true
  player : ActionExec
  opp : ActionExec

namespace LineTurn

structure Built (t : LineTurn) : Prop where
  playerSlot : t.node.playerSlot = ⟨0, t.plActive, t.playerAction.moveSlot⟩
  playerCost : t.node.playerCost = actionPpCost t.playerAction t.opPressure
  oppSlot : t.edge.oppSlot = ⟨1, t.opActive, t.oppAction.moveSlot⟩
  oppCost : t.edge.oppCost = actionPpCost t.oppAction t.plPressure

def runPlayer (t : LineTurn) : PpTable → PpTable := t.player.run 0 t.playerAction
def runOpp (t : LineTurn) : PpTable → PpTable := t.opp.run 1 t.oppAction

def tables (t : LineTurn) (T : PpTable) : PpTable × PpTable :=
  if t.playerFirst then (t.runPlayer T, t.runOpp (t.runPlayer T))
  else (t.runOpp T, t.runPlayer (t.runOpp T))

def cost (t : LineTurn) (slot : PpSlotKey) : Int :=
  t.node.ownCost slot + slotCost t.edge.oppSlot t.edge.oppCost slot

end LineTurn

/-- The tables met along a line. -/
def lineTables (T : PpTable) : List LineTurn → List PpTable
  | [] => []
  | t :: line => (t.tables T).1 :: (t.tables T).2 :: lineTables (t.tables T).2 line

/-- The line follows the graph from a node on, and stops at the latest at a leaf. -/
def Plays (g : PpCertGraph) : Nat → List LineTurn → Prop
  | _, [] => True
  | i, t :: line =>
    g.nodes[i]? = some t.node ∧ t.edge ∈ t.node.children ∧ t.Built ∧
      (line = [] ∨ 0 ≤ t.edge.child ∧ Plays g t.edge.child.toNat line)

/-- An action copies no moves, and what it pays is what the certificate charges: the slot of the
mon active at the start of the turn, and Pressure only if it was there at the start. -/
structure ActionExec.Charged (x : ActionExec) (a : ExecAction) (active : Int)
    (opposingPressure : Bool) : Prop where
  noCopy : x.copies = none
  mon : a.kind = 0 → x.mon = active
  slot : a.kind = 0 → x.effectiveSlot = a.moveSlot
  pressure : x.opposingPressure = true → opposingPressure = true

def LineTurn.Undisturbed (t : LineTurn) : Prop :=
  t.player.Charged t.playerAction t.plActive t.opPressure ∧
    t.opp.Charged t.oppAction t.opActive t.plPressure

section Bound

variable {T : PpTable} {slot : PpSlotKey}

theorem PpTable.consumePp_ge (T : PpTable) (used slot : PpSlotKey) (extraPp : Int) :
    T slot - slotCost used (1 + extraPp) slot ≤ T.consumePp used extraPp slot := by
  by_cases h : slot = used
  · subst h
    simp only [consumePp, slotCost, if_true, Function.update_self]
    omega
  · simp only [consumePp, slotCost, if_neg h, Function.update_of_ne h, sub_zero]
    exact le_rfl

theorem PpTable.checkLeppaBerry_ge (T : PpTable) (used slot : PpSlotKey) (leppa : Option Nat) :
    T slot ≤ T.checkLeppaBerry used leppa slot := by
  unfold checkLeppaBerry
  split
  · exact le_rfl
  · split
    · exact le_rfl
    · rename_i h0
      by_cases h : slot = used
      · subst h
        rw [Function.update_self, not_not.1 h0]
        exact Int.natCast_nonneg _
      · rw [Function.update_of_ne h]

theorem slotCost_mono {used : PpSlotKey} {c c' : Int} (h : c ≤ c') (slot : PpSlotKey) :
    slotCost used c slot ≤ slotCost used c' slot := by
  unfold slotCost
  split
  · exact max_le_max h le_rfl
  · exact le_rfl

theorem ActionExec.run_ge {x : ActionExec} {side : Int} {a : ExecAction} {active : Int}
    {opposingPressure : Bool} (h : x.Charged a active opposingPressure) (T : PpTable)
    (slot : PpSlotKey) :
    T slot - slotCost ⟨side, active, a.moveSlot⟩ (actionPpCost a opposingPressure) slot ≤
      x.run side a T slot := by
  have hcopy : ∀ T : PpTable, x.applyCopy side T = T := by
    intro T
    rw [applyCopy, h.noCopy]
  have hnn := slotCost_nonneg ⟨side, active, a.moveSlot⟩ (actionPpCost a opposingPressure) slot
  unfold run
  by_cases hk : a.kind = 0
  · have hslot : x.slot side = ⟨side, active, a.moveSlot⟩ := by
      rw [ActionExec.slot, h.mon hk, h.slot hk]
    -- a use that is paid costs its slot one PP, and two under Pressure
    have hcost : 0 ≤ x.effectiveSlot → 1 + x.pressureExtra ≤ actionPpCost a opposingPressure := by
      intro hpos
      rw [h.slot hk] at hpos
      rw [actionPpCost, if_neg (by omega), pressureExtra]
      cases hp : x.opposingPressure with
      | false =>
        simp only [Bool.and_false, Bool.false_eq_true, if_false]
        split <;> omega
      | true =>
        rw [h.pressure hp]
        simp only [if_true]
        split <;> omega
    have hextra : 0 ≤ x.pressureExtra := by
      unfold pressureExtra
      split <;> omega
    simp only [hk, ne_eq, not_true_eq_false, if_false, hcopy, hslot]
    split
    · omega
    · split
      · split
        · rename_i hpos
          refine le_trans ?_ (T.consumePp_ge _ slot 0)
          have := @slotCost_mono ⟨side, active, a.moveSlot⟩ _ _
            (le_trans (by omega) (hcost hpos.2) : 1 + 0 ≤ actionPpCost a opposingPressure) slot
          omega
        · omega
      · split
        · rename_i hpos
          refine le_trans ?_ (PpTable.checkLeppaBerry_ge _ _ slot _)
          refine le_trans ?_ (T.consumePp_ge _ slot _)
          have := @slotCost_mono ⟨side, active, a.moveSlot⟩ _ _ (hcost hpos.2) slot
          omega
        · omega
  · rw [if_pos hk, hcopy]
    omega

theorem LineTurn.tables_ge {t : LineTurn} (hb : t.Built) (hu : t.Undisturbed) (T : PpTable)
    (slot : PpSlotKey) :
    T slot - t.cost slot ≤ (t.tables T).1 slot ∧ T slot - t.cost slot ≤ (t.tables T).2 slot := by
  have hpl : ∀ T : PpTable, T slot - t.node.ownCost slot ≤ t.runPlayer T slot := by
    intro T
    rw [PpCertNode.ownCost, hb.playerSlot, hb.playerCost]
    exact ActionExec.run_ge hu.1 T slot
  have hop : ∀ T : PpTable,
      T slot - slotCost t.edge.oppSlot t.edge.oppCost slot ≤ t.runOpp T slot := by
    intro T
    rw [hb.oppSlot, hb.oppCost]
    exact ActionExec.run_ge hu.2 T slot
  have hnn : 0 ≤ t.node.ownCost slot := slotCost_nonneg _ _ _
  have hnn' := slotCost_nonneg t.edge.oppSlot t.edge.oppCost slot
  unfold tables cost
  split
  · have h₁ := hpl T
    have h₂ := hop (t.runPlayer T)
    constructor <;> dsimp only <;> omega
  · have h₁ := hop T
    have h₂ := hpl (t.runOpp T)
    constructor <;> dsimp only <;> omega

def lineCost (slot : PpSlotKey) (line : List LineTurn) : Int :=
  (line.map fun t => t.cost slot).sum

theorem LineTurn.cost_nonneg (t : LineTurn) (slot : PpSlotKey) : 0 ≤ t.cost slot :=
  add_nonneg (slotCost_nonneg _ _ _) (slotCost_nonneg _ _ _)

theorem lineCost_nonneg (slot : PpSlotKey) (line : List LineTurn) : 0 ≤ lineCost slot line := by
  apply List.sum_nonneg
  intro c hc
  obtain ⟨t, _, rfl⟩ := List.mem_map.1 hc
  exact t.cost_nonneg slot

theorem lineTables_ge {g : PpCertGraph} {i : Nat} {line : List LineTurn} (hplay : Plays g i line)
    (hu : ∀ t ∈ line, t.Undisturbed) {T' : PpTable} (hT' : T' ∈ lineTables T line) :
    T slot - lineCost slot line ≤ T' slot := by
  induction line generalizing T i with
  | nil => cases hT'
  | cons t line ih =>
    obtain ⟨_, _, hbuilt, hnext⟩ := hplay
    have hturn := LineTurn.tables_ge hbuilt (hu t List.mem_cons_self) T slot
    have hnn := lineCost_nonneg slot line
    have hsum : lineCost slot (t :: line) = t.cost slot + lineCost slot line := by
      rw [lineCost, List.map_cons, List.sum_cons, lineCost]
    rw [lineTables] at hT'
    rcases List.mem_cons.1 hT' with rfl | hT'
    · omega
    rcases List.mem_cons.1 hT' with rfl | hT'
    · omega
    rcases hnext with rfl | ⟨_, hplay⟩
    · cases hT'
    · have := ih hplay (fun t' ht' => hu t' (List.mem_cons_of_mem _ ht')) hT'
      omega

theorem lineCost_le {g : PpCertGraph} {i : Nat} {line : List LineTurn} (hplay : Plays g i line)
    (hends : ∀ j, Relation.ReflTransGen g.Child i j → ∀ slot, ∃ v, g.LineCost slot j v)
    (hne : line ≠ []) (slot : PpSlotKey) :
    ∃ v, g.LineCost slot i v ∧ lineCost slot line ≤ v := by
  induction line generalizing i with
  | nil => exact absurd rfl hne
  | cons t line ih =>
    obtain ⟨hnode, hedge, _, hnext⟩ := hplay
    have hsum : lineCost slot (t :: line) =
        t.node.ownCost slot +
          (slotCost t.edge.oppSlot t.edge.oppCost slot + lineCost slot line) := by
      rw [lineCost, List.map_cons, List.sum_cons, LineTurn.cost, lineCost, add_assoc]
    rw [hsum]
    by_cases hchild : 0 ≤ t.edge.child
    · have hstep : g.Child i t.edge.child.toNat := ⟨t.node, hnode, t.edge, hedge, hchild, rfl⟩
      -- some line goes on below the edge and costs at least what is played there
      have hrest : ∃ v, g.LineCost slot t.edge.child.toNat v ∧ lineCost slot line ≤ v := by
        cases line with
        | nil =>
          obtain ⟨v, hv⟩ := hends _ (.single hstep) slot
          exact ⟨v, hv, hv.nonneg⟩
        | cons t' line =>
          have hplay := (hnext.resolve_left (List.cons_ne_nil _ _)).2
          exact ih hplay (fun j hj => hends j (hj.head hstep)) (List.cons_ne_nil _ _)
      obtain ⟨v, hv, hle⟩ := hrest
      exact ⟨_, .step hnode hedge hchild hv, by omega⟩
    · have hnil : line = [] := by
        rcases hnext with h | h
        · exact h
        · exact absurd h.1 hchild
      subst hnil
      refine ⟨_, .leaf hnode hedge (not_le.1 hchild), ?_⟩
      rw [lineCost, List.map_nil, List.sum_nil, add_zero]

end Bound

theorem ppCertAuditOk_spec {rootPp : PpRootPp} {c : PpConsumption}
    (h : ppCertAuditOk rootPp c = .ok true) {slot : PpSlotKey} {rs : PpRootSlot}
    (hrs : rootPp.lookup slot = some rs) (hmask : isCycleCapableMove rs.moveId = false)
    (hpos : 0 < rs.realPp) : c.get slot < rs.realPp := by
  induction c with
  | nil => exact hpos
  | cons p c ih =>
    obtain ⟨s, consumed⟩ := p
    rw [ppCertAuditOk] at h
    rw [PpConsumption.get_cons]
    split at h
    · cases h
    · rename_i rs' hl
      by_cases hs : slot = s
      · subst hs
        obtain rfl := Option.some.inj (hl.symm.trans hrs)
        rw [if_pos rfl]
        rw [if_neg (by simp [hmask])] at h
        split at h
        · cases h
        · omega
      · rw [if_neg hs]
        split at h
        · exact ih h
        · split at h
          · cases h
          · exact ih h

/-- The audit computes the largest consumption of every line or raises on a cycle; and when it
passes, no masked slot that had PP at the root runs out along a line that no copied moves and no
change of slot, mon or Pressure within a turn disturb. -/
theorem ppAudit_sound {g : PpCertGraph} (hg : g.WellFormed) :
    (¬ g.CyclicFrom g.root.toNat → ∃ c, ppMaxConsumption g = .ok c ∧
      ∀ slot, IsGreatest {v | g.LineCost slot g.root.toNat v} (c.get slot)) ∧
    (g.CyclicFrom g.root.toNat → ppMaxConsumption g = .error PpCertGraph.cycleFault) ∧
    ∀ rootPp c, ppMaxConsumption g = .ok c → ppCertAuditOk rootPp c = .ok true →
      ∀ (T : PpTable) line, (∀ slot rs, rootPp.lookup slot = some rs → T slot = rs.realPp) →
        Plays g g.root.toNat line → (∀ t ∈ line, t.Undisturbed) →
          ∀ slot rs, rootPp.lookup slot = some rs → isCycleCapableMove rs.moveId = false →
            0 < rs.realPp → ∀ T' ∈ lineTables T line, 0 < T' slot := by
  refine ⟨PpCertGraph.ppMaxConsumption_acyclic hg, PpCertGraph.ppMaxConsumption_cyclic hg, ?_⟩
  intro rootPp c hc haudit T line hT hplay hu slot rs hrs hmask hpos T' hT'
  have hsettled := PpCertGraph.ppMaxConsumption_visitOk hg
  rw [hc] at hsettled
  have hne : line ≠ [] := by
    rintro rfl
    cases hT'
  obtain ⟨v, hv, hle⟩ := lineCost_le hplay hsettled.ends hne slot
  have hmax := (hsettled.greatest slot).2 hv
  have hlow := @lineTables_ge T slot g g.root.toNat line hplay hu T' hT'
  have hbound := ppCertAuditOk_spec haudit hrs hmask hpos
  rw [hT slot rs hrs] at hlow
  omega

def playerTackle : PpSlotKey := ⟨0, 0, 0⟩

def diamond : PpCertGraph where
  nodes := [⟨playerTackle, 1, [⟨⟨1, 0, 0⟩, 1, -1⟩]⟩,
    ⟨playerTackle, 1, [⟨⟨1, 0, 0⟩, 1, 0⟩, ⟨⟨1, 0, 1⟩, 1, 0⟩]⟩]
  root := 1

def diamondPp : PpRootPp :=
  [(playerTackle, ⟨35, 33⟩), (⟨1, 0, 0⟩, ⟨3, 45⟩), (⟨1, 0, 1⟩, ⟨20, 39⟩)]

def tableOf (rootPp : PpRootPp) : PpTable := fun slot =>
  ((rootPp.lookup slot).map PpRootSlot.realPp).getD 0

def tackleTurn (oppSlot : Int) (child : Int) (node : PpCertNode) : LineTurn where
  node := node
  edge := ⟨⟨1, 0, oppSlot⟩, 1, child⟩
  plActive := 0
  opActive := 0
  playerAction := { moveSlot := 0 }
  oppAction := { moveSlot := oppSlot }
  player := { mon := 0, effectiveSlot := 0 }
  opp := { mon := 0, effectiveSlot := oppSlot }

def diamondLine : List LineTurn :=
  [tackleTurn 1 0 ⟨playerTackle, 1, [⟨⟨1, 0, 0⟩, 1, 0⟩, ⟨⟨1, 0, 1⟩, 1, 0⟩]⟩,
    tackleTurn 0 (-1) ⟨playerTackle, 1, [⟨⟨1, 0, 0⟩, 1, -1⟩]⟩]

theorem diamond_wellFormed : diamond.WellFormed where
  child_lt := by
    intro i node hi
    have hall : ∀ node ∈ diamond.nodes, ∀ e ∈ node.children, 0 ≤ e.child →
        e.child.toNat < diamond.nodes.length := by decide
    exact hall node (List.mem_of_getElem? hi)
  root_nonneg := by decide
  root_lt := by decide

theorem diamond_audited :
    ppMaxConsumption diamond =
      .ok [(playerTackle, 2), (⟨1, 0, 0⟩, 2), (⟨1, 0, 1⟩, 1)] ∧
    ∀ T' ∈ lineTables (tableOf diamondPp) diamondLine, 0 < T' playerTackle := by
  have hc : ppMaxConsumption diamond =
      .ok [(playerTackle, 2), (⟨1, 0, 0⟩, 2), (⟨1, 0, 1⟩, 1)] := by decide +kernel
  refine ⟨hc, (ppAudit_sound diamond_wellFormed).2.2 diamondPp _ hc (by decide) _ _ ?_ ?_ ?_
    playerTackle ⟨35, 33⟩ (by decide) (by decide) (by decide)⟩
  · intro slot rs hrs
    rw [tableOf, hrs]
    rfl
  · refine ⟨rfl, by decide, ⟨rfl, rfl, rfl, rfl⟩, Or.inr ⟨by decide, rfl, by decide,
      ⟨rfl, rfl, rfl, rfl⟩, Or.inl rfl⟩⟩
  · intro t ht
    have hcharged : ∀ (s : Int), ActionExec.Charged { mon := 0, effectiveSlot := s }
        { moveSlot := s } 0 false :=
      fun s => ⟨rfl, fun _ => rfl, fun _ => rfl, fun h => absurd h Bool.false_ne_true⟩
    rcases List.mem_cons.1 ht with rfl | ht
    · exact ⟨hcharged 0, hcharged 1⟩
    · rw [List.mem_singleton.1 ht]
      exact ⟨hcharged 0, hcharged 0⟩

def transformGraph : PpCertGraph where
  nodes := [⟨playerTackle, 1, [⟨⟨1, 0, 0⟩, 1, -1⟩]⟩, ⟨playerTackle, 1, [⟨⟨1, 0, 0⟩, 1, 0⟩]⟩]
  root := 1

def transformPp : PpRootPp :=
  [(playerTackle, ⟨10, 144⟩), (⟨0, 0, 1⟩, ⟨35, 33⟩), (⟨1, 0, 0⟩, ⟨10, 45⟩), (⟨1, 0, 1⟩, ⟨0, 0⟩)]

def transformLine : List LineTurn :=
  [{ tackleTurn 0 0 ⟨playerTackle, 1, [⟨⟨1, 0, 0⟩, 1, 0⟩]⟩ with
      player := { mon := 0, effectiveSlot := 0, hitsOpponent := true, copies := some 0 } },
    tackleTurn 0 (-1) ⟨playerTackle, 1, [⟨⟨1, 0, 0⟩, 1, -1⟩]⟩]

theorem transform_empties_slot :
    (∃ c, ppMaxConsumption transformGraph = .ok c ∧
      ppCertAuditOk transformPp c = .ok true) ∧
    Plays transformGraph transformGraph.root.toNat transformLine ∧
    transformPp.lookup ⟨0, 0, 1⟩ = some ⟨35, 33⟩ ∧ isCycleCapableMove 33 = false ∧
    ∃ T' ∈ (lineTables (tableOf transformPp) transformLine).take 1, T' ⟨0, 0, 1⟩ = 0 := by
  refine ⟨⟨[(playerTackle, 2), (⟨1, 0, 0⟩, 2)], by decide +kernel, by decide⟩, ?_, rfl, by decide,
    _, List.mem_cons_self, by decide⟩
  exact ⟨rfl, by decide, ⟨rfl, rfl, rfl, rfl⟩, Or.inr ⟨by decide, rfl, by decide,
    ⟨rfl, rfl, rfl, rfl⟩, Or.inl rfl⟩⟩

end NuzlockeSolver
