import Mathlib.Algebra.BigOperators.Group.List.Basic
import Mathlib.Algebra.BigOperators.Ring.List
import Mathlib.Tactic.Ring

/-!
# Weighted lists

A finite distribution is a list of weighted outcomes; the average of a function over it is the
only operation needed. Equal averages of every function is equality of distributions.
-/

namespace NuzlockeSolver.WeightedList

variable {R : Type*} [CommSemiring R] {α β : Type*}

def mass (W : List (α × R)) : R := (W.map (·.2)).sum

def avg (W : List (α × R)) (f : α → R) : R := (W.map fun aw => aw.2 * f aw.1).sum

@[simp] theorem avg_nil (f : α → R) : avg [] f = 0 := rfl

@[simp] theorem avg_cons (aw : α × R) (W : List (α × R)) (f : α → R) :
    avg (aw :: W) f = aw.2 * f aw.1 + avg W f := by
  simp [avg]

theorem avg_perm {W W' : List (α × R)} (h : W.Perm W') (f : α → R) : avg W f = avg W' f :=
  (h.map _).sum_eq

theorem avg_congr {W : List (α × R)} {f g : α → R} (h : ∀ aw ∈ W, f aw.1 = g aw.1) :
    avg W f = avg W g := by
  refine congrArg List.sum (List.map_congr_left fun aw haw => ?_)
  rw [h aw haw]

theorem avg_const (W : List (α × R)) (c : R) : avg W (fun _ => c) = mass W * c := by
  rw [avg, List.sum_map_mul_right, mass]

theorem avg_add (W : List (α × R)) (f g : α → R) :
    avg W (fun a => f a + g a) = avg W f + avg W g := by
  induction W with
  | nil => simp
  | cons aw W ih =>
    simp only [avg_cons, ih]
    ring

theorem avg_mul (W : List (α × R)) (c : R) (f : α → R) :
    avg W (fun a => c * f a) = c * avg W f := by
  induction W with
  | nil => simp
  | cons aw W ih =>
    simp only [avg_cons, ih]
    ring

theorem avg_comm (W : List (α × R)) (V : List (β × R)) (f : α → β → R) :
    avg W (fun a => avg V (f a)) = avg V (fun b => avg W (fun a => f a b)) := by
  induction W with
  | nil => simp [avg_const]
  | cons aw W ih =>
    simp only [avg_cons, ih, avg_add, avg_mul]

section Draws

def point (a : α) : List (α × R) := [(a, 1)]

def andThen (W : List (α × R)) (f : α → List (β × R)) : List (β × R) :=
  W.flatMap fun aw => (f aw.1).map fun bw => (bw.1, aw.2 * bw.2)

def drawAll (f : α → List (β × R)) : List α → List (List β × R)
  | [] => point []
  | a :: l => andThen (f a) fun b => andThen (drawAll f l) fun bs => point (b :: bs)

@[simp] theorem avg_point (a : α) (g : α → R) : avg (point a) g = g a := by
  simp [point]

theorem avg_append (W V : List (α × R)) (g : α → R) : avg (W ++ V) g = avg W g + avg V g := by
  simp [avg]

@[simp] theorem avg_andThen (W : List (α × R)) (f : α → List (β × R)) (g : β → R) :
    avg (andThen W f) g = avg W fun a => avg (f a) g := by
  induction W with
  | nil => rfl
  | cons aw W ih =>
    have hscale : avg ((f aw.1).map fun bw => (bw.1, aw.2 * bw.2)) g = aw.2 * avg (f aw.1) g := by
      simp only [avg, List.map_map, ← List.sum_map_mul_left]
      refine congrArg List.sum (List.map_congr_left fun bw _ => ?_)
      simp only [Function.comp_apply, mul_assoc]
    rw [andThen, List.flatMap_cons, avg_append, hscale, avg_cons, ← ih, andThen]

@[simp] theorem avg_drawAll_nil (f : α → List (β × R)) (g : List β → R) :
    avg (drawAll f []) g = g [] := by
  rw [drawAll, avg_point]

@[simp] theorem avg_drawAll_cons (f : α → List (β × R)) (a : α) (l : List α) (g : List β → R) :
    avg (drawAll f (a :: l)) g = avg (f a) fun b => avg (drawAll f l) fun bs => g (b :: bs) := by
  simp only [drawAll, avg_andThen, avg_point]

end Draws

end NuzlockeSolver.WeightedList
