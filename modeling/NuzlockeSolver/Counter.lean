import Mathlib.Algebra.BigOperators.Group.List.Basic
import Mathlib.Algebra.GroupWithZero.Nat
import Mathlib.Data.List.Count

/-!
# Counters

A counter is a list of keys with their counts, each key once it has been seen. Counting over a list
adds up the weights of the elements with a key, in whatever order they come.
-/

namespace NuzlockeSolver

section Counter

variable {κ α : Type*} [DecidableEq κ]

def bump (key : κ) (n : Nat) : List (κ × Nat) → List (κ × Nat)
  | [] => [(key, n)]
  | (k, m) :: counts => if k = key then (k, m + n) :: counts else (k, m) :: bump key n counts

def countOf (counts : List (κ × Nat)) (key : κ) : Nat := (counts.lookup key).getD 0

@[simp] theorem countOf_nil (key : κ) : countOf [] key = 0 := rfl

theorem countOf_cons (k key : κ) (n : Nat) (counts : List (κ × Nat)) :
    countOf ((k, n) :: counts) key = if k = key then n else countOf counts key := by
  by_cases h : k = key
  · simp [countOf, h]
  · have hbeq : (key == k) = false := beq_eq_false_iff_ne.2 (Ne.symm h)
    simp only [countOf, List.lookup_cons, hbeq, if_neg h]

theorem countOf_bump (key k : κ) (n : Nat) (counts : List (κ × Nat)) :
    countOf (bump key n counts) k = countOf counts k + if key = k then n else 0 := by
  induction counts with
  | nil =>
    rw [bump, countOf_cons, countOf_nil, Nat.zero_add]
  | cons entry counts ih =>
    obtain ⟨k', m⟩ := entry
    by_cases hkey : k' = key
    · rw [bump, if_pos hkey, countOf_cons, countOf_cons, ← hkey]
      split <;> simp
    · rw [bump, if_neg hkey, countOf_cons, countOf_cons, ih]
      split
      · rename_i hk
        rw [if_neg (fun h => hkey (hk.trans h.symm)), Nat.add_zero]
      · rfl

def countAll (entries : List (κ × Nat)) (counts : List (κ × Nat)) : List (κ × Nat) :=
  entries.foldl (fun counts entry => bump entry.1 entry.2 counts) counts

theorem countOf_countAll (entries counts : List (κ × Nat)) (key : κ) :
    countOf (countAll entries counts) key =
      countOf counts key + (entries.map fun entry => if entry.1 = key then entry.2 else 0).sum := by
  induction entries generalizing counts with
  | nil => rfl
  | cons entry entries ih =>
    rw [countAll, List.foldl_cons, ← countAll, ih, countOf_bump, List.map_cons, List.sum_cons,
      Nat.add_assoc]

theorem sum_map_indicator (l : List α) (p : α → Bool) :
    (l.map fun a => if p a then 1 else 0).sum = l.countP p := by
  induction l with
  | nil => rfl
  | cons a l ih =>
    rw [List.map_cons, List.sum_cons, ih, List.countP_cons, Nat.add_comm]

end Counter

end NuzlockeSolver
