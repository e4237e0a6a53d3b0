import Mathlib.Order.Nat
import Mathlib.Tactic.Common

/-!
# Computations with fuel

A computation that may not end is a function of its fuel, and ends with a value when every fuel
from some point on gives that value. A loop whose body lowers a measure ends.
-/

namespace NuzlockeSolver

/-- The value at a given fuel, or none when the fuel runs out. -/
abbrev Fueled (α : Type) := Nat → Option α

namespace Fueled

variable {α β σ : Type}

def ret (a : α) : Fueled α := fun _ => some a

def bind (x : Fueled α) (f : α → Fueled β) : Fueled β := fun n => (x n).bind fun a => f a n

def loop (body : σ → Fueled (Option σ)) : σ → Fueled σ
  | _, 0 => none
  | s, n + 1 => (body s n).bind fun next =>
    match next with
    | none => some s
    | some s' => loop body s' n

def Ends (x : Fueled α) (a : α) : Prop := ∃ n, ∀ m, n ≤ m → x m = some a

theorem ends_ret (a : α) : (ret a).Ends a := ⟨0, fun _ _ => rfl⟩

theorem Ends.bind {x : Fueled α} {f : α → Fueled β} {a : α} {b : β} (hx : x.Ends a)
    (hf : (f a).Ends b) : (x.bind f).Ends b := by
  obtain ⟨n, hn⟩ := hx
  obtain ⟨k, hk⟩ := hf
  refine ⟨max n k, fun m hm => ?_⟩
  rw [Fueled.bind, hn m (Nat.max_le.1 hm).1, Option.bind_some]
  exact hk m (Nat.max_le.1 hm).2

theorem Ends.unique {x : Fueled α} {a b : α} (ha : x.Ends a) (hb : x.Ends b) : a = b := by
  obtain ⟨n, hn⟩ := ha
  obtain ⟨k, hk⟩ := hb
  have h := (hn (max n k) (Nat.le_max_left n k)).symm.trans (hk (max n k) (Nat.le_max_right n k))
  exact Option.some.inj h

theorem loop_ends_of_none {body : σ → Fueled (Option σ)} {s : σ} (h : (body s).Ends none) :
    (loop body s).Ends s := by
  obtain ⟨n, hn⟩ := h
  refine ⟨n + 1, fun m hm => ?_⟩
  obtain ⟨m, rfl⟩ := Nat.exists_eq_add_of_le' (Nat.le_of_add_left_le hm)
  rw [loop, hn m (Nat.le_of_succ_le_succ hm)]
  rfl

theorem loop_ends_of_some {body : σ → Fueled (Option σ)} {s s' t : σ}
    (h : (body s).Ends (some s')) (ht : (loop body s').Ends t) : (loop body s).Ends t := by
  obtain ⟨n, hn⟩ := h
  obtain ⟨k, hk⟩ := ht
  refine ⟨max n k + 1, fun m hm => ?_⟩
  obtain ⟨m, rfl⟩ := Nat.exists_eq_add_of_le' (Nat.le_of_add_left_le hm)
  have hm' := Nat.le_of_succ_le_succ hm
  rw [loop, hn m (Nat.max_le.1 hm').1]
  exact hk m (Nat.max_le.1 hm').2

/-- A loop ends when its body keeps an invariant and lowers a measure; it ends where the body has
no next state. -/
theorem loop_ends {body : σ → Fueled (Option σ)} (Inv : σ → Prop) (measure : σ → Nat)
    (hbody : ∀ s, Inv s → (body s).Ends none ∨
      ∃ s', (body s).Ends (some s') ∧ Inv s' ∧ measure s' < measure s) {s : σ} (hs : Inv s) :
    ∃ t, (loop body s).Ends t ∧ Inv t ∧ (body t).Ends none := by
  induction hm : measure s using Nat.strongRecOn generalizing s with
  | _ m ih =>
    subst hm
    rcases hbody s hs with hnone | ⟨s', hsome, hs', hlt⟩
    · exact ⟨s, loop_ends_of_none hnone, hs, hnone⟩
    · obtain ⟨t, ht, hInv, hend⟩ := ih (measure s') hlt hs' rfl
      exact ⟨t, loop_ends_of_some hsome ht, hInv, hend⟩

end Fueled

end NuzlockeSolver
