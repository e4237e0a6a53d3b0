import NuzlockeSolver.Basic
import NuzlockeSolver.Question

/-!
# The PP audit of a winning certificate

A certificate over canonicalised contexts may spend more PP on a masked slot than the real root
has. The audit takes the certificate as a graph, computes the largest consumption of every slot
along one line of play, and compares it with the real PP at the root.
-/

namespace NuzlockeSolver

structure PpSlotKey where
  side : Int
  mon : Int
  slot : Int
deriving DecidableEq, Repr

abbrev PpConsumption := List (PpSlotKey × Int)

namespace PpConsumption

def get (c : PpConsumption) (slot : PpSlotKey) : Int :=
  (c.lookup slot).getD 0

def set (c : PpConsumption) (slot : PpSlotKey) (v : Int) : PpConsumption :=
  match c with
  | [] => [(slot, v)]
  | (s, w) :: c => if s = slot then (s, v) :: c else (s, w) :: set c slot v

def addInto (dst src : PpConsumption) : PpConsumption :=
  src.foldl (fun acc p => set acc p.1 (get acc p.1 + p.2)) dst

def maxInto (dst src : PpConsumption) : PpConsumption :=
  src.foldl (fun acc p =>
    match acc.lookup p.1 with
    | none => set acc p.1 p.2
    | some w => if p.2 > w then set acc p.1 p.2 else acc) dst

end PpConsumption

/-- `child < 0` marks a terminal leaf. -/
structure PpCertEdge where
  oppSlot : PpSlotKey
  oppCost : Int
  child : Int := -1
deriving DecidableEq, Repr

structure PpCertNode where
  playerSlot : PpSlotKey
  playerCost : Int := 0
  children : List PpCertEdge := []
deriving DecidableEq, Repr

structure PpCertGraph where
  nodes : List PpCertNode := []
  root : Int := 0
deriving DecidableEq, Repr

inductive Color
  | unseen
  | onPath
  | done (memo : PpConsumption)
deriving DecidableEq, Repr

abbrev Visiting := List (Nat × Color)

def visitEdges (visit : Int → Visiting → Except Fault (PpConsumption × Visiting)) :
    List PpCertEdge → PpConsumption → Visiting → Except Fault (PpConsumption × Visiting)
  | [], childMax, color => .ok (childMax, color)
  | e :: es, childMax, color => do
    let branch : PpConsumption := if e.oppCost > 0 then [(e.oppSlot, e.oppCost)] else []
    if e.child ≥ 0 then
      let (sub, color) ← visit e.child color
      visitEdges visit es (childMax.maxInto (branch.addInto sub)) color
    else
      visitEdges visit es (childMax.maxInto branch) color

def visitNode (g : PpCertGraph) : Nat → Int → Visiting → Except Fault (PpConsumption × Visiting)
  | 0, _, _ => .error .fuel
  | fuel + 1, i, color =>
    match color.lookup i.toNat with
    | some (.done memo) => .ok (memo, color)
    | some .onPath => .error (.logicError "pp_max_consumption: cycle in certificate DAG")
    | _ =>
      match g.nodes[i.toNat]? with
      | none => .error (.runtimeError "pp_max_consumption: node index out of range")
      | some node => do
        let own : PpConsumption :=
          if node.playerCost > 0 then [(node.playerSlot, node.playerCost)] else []
        let (childMax, color) ←
          visitEdges (visitNode g fuel) node.children [] ((i.toNat, .onPath) :: color)
        let acc := own.addInto childMax
        .ok (acc, (i.toNat, .done acc) :: color)

def ppMaxConsumption (g : PpCertGraph) : Except Fault PpConsumption :=
  if g.nodes.isEmpty then .ok []
  else (visitNode g (g.nodes.length + 1) g.root []).map Prod.fst

structure PpRootSlot where
  realPp : Int
  moveId : Int
deriving DecidableEq, Repr

abbrev PpRootPp := List (PpSlotKey × PpRootSlot)

def isCycleCapableMove (moveId : Int) : Bool :=
  moveId ∈ [105, 135, 208, 303, 456, 355, 234, 235, 236, 659, 791, 273, 256, 668, 156]

/-- Every masked slot must stay strictly below its real PP at the root. -/
def ppCertAuditOk (rootPp : PpRootPp) : PpConsumption → Except Fault Bool
  | [] => .ok true
  | (slot, consumed) :: rest =>
    match rootPp.lookup slot with
    | none => .error (.logicError "pp_cert_audit_ok: consumed slot absent from root PP snapshot")
    | some rs =>
      if isCycleCapableMove rs.moveId then ppCertAuditOk rootPp rest
      else if rs.realPp > 0 ∧ consumed ≥ rs.realPp then .ok false
      else ppCertAuditOk rootPp rest

end NuzlockeSolver
