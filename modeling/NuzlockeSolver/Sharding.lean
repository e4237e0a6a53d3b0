import Mathlib.Data.List.Perm.Lattice
import Mathlib.Data.List.Range
import NuzlockeSolver.Basic

/-!
# Shards of a stream

A stream is generated one element at a time from a state. A shard generates all of it and keeps the
elements whose positions have its residue. The shards of one modulus share the elements out: each
takes its own, and together they have them all.
-/

namespace NuzlockeSolver.Sharding

variable {γ α ε : Type}

/-- The next elements of the stream, and the state after them. -/
def collect (gen : γ → Except ε (α × γ)) : Nat → γ → Except ε (List α × γ)
  | 0, g => .ok ([], g)
  | n + 1, g => do
    let r ← gen g
    let rest ← collect gen n r.2
    .ok (r.1 :: rest.1, rest.2)

def skip (gen : γ → Except ε (α × γ)) : Nat → γ → Except ε γ
  | 0, g => .ok g
  | n + 1, g => do
    let r ← gen g
    skip gen n r.2

/-- Generate until a position is wanted; `stuck` when the fuel is spent first. -/
def seek (gen : γ → Except ε (α × γ)) (want : Nat → Bool) (stuck : ε) :
    Nat → Nat × γ → Except ε (α × (Nat × γ))
  | 0, _ => .error stuck
  | fuel + 1, s => do
    let r ← gen s.2
    if want s.1 then .ok (r.1, (s.1 + 1, r.2))
    else seek gen want stuck fuel (s.1 + 1, r.2)

/-- The elements of a shard: those at `k` and on in strides. -/
def strided (stride k n : Nat) (xs : List α) : List α :=
  (List.range n).filterMap fun i => xs[k + i * stride]?

variable {gen : γ → Except ε (α × γ)} {want : Nat → Bool} {stuck : ε} {g : γ}

theorem length_of_collect {n : Nat} {r : List α × γ} (h : collect gen n g = .ok r) :
    r.1.length = n := by
  induction n generalizing g r with
  | zero =>
    cases h
    rfl
  | succ n ih =>
    obtain ⟨_, -, h⟩ := bind_eq_ok.1 h
    obtain ⟨rest, hrest, h⟩ := bind_eq_ok.1 h
    cases h
    rw [List.length_cons, ih hrest]

theorem collect_add (m n : Nat) : collect gen (m + n) g =
    collect gen m g >>= fun a => collect gen n a.2 >>= fun b => .ok (a.1 ++ b.1, b.2) := by
  induction m generalizing g with
  | zero =>
    rw [Nat.zero_add]
    exact (bind_pure _).symm
  | succ m ih =>
    rw [Nat.succ_add]
    simp only [collect, ih, bind_assoc, ok_bind, List.cons_append]

theorem skip_bind (n : Nat) {β : Type} (f : γ → Except ε β) :
    skip gen n g >>= f = collect gen n g >>= fun a => f a.2 := by
  induction n generalizing g with
  | zero => rfl
  | succ n ih => simp only [skip, collect, bind_assoc, ih, ok_bind]

theorem seek_eq {d fuel i : Nat} (hskip : ∀ j < d, want (i + j) = false)
    (hwant : want (i + d) = true) (hfuel : d < fuel) : seek gen want stuck fuel (i, g) =
      collect gen d g >>= fun a => gen a.2 >>= fun r => .ok (r.1, (i + d + 1, r.2)) := by
  rw [← skip_bind (f := fun g₁ => gen g₁ >>= fun r => .ok (r.1, (i + d + 1, r.2)))]
  induction d generalizing fuel i g with
  | zero =>
    obtain ⟨fuel, rfl⟩ : ∃ f, fuel = f + 1 := ⟨fuel - 1, by omega⟩
    rw [Nat.add_zero] at hwant
    simp only [seek, skip, hwant, if_true, ok_bind, Nat.add_zero]
  | succ d ih =>
    obtain ⟨fuel, rfl⟩ : ∃ f, fuel = f + 1 := ⟨fuel - 1, by omega⟩
    have hfirst : want i = false := hskip 0 (Nat.succ_pos d)
    have hshift (j : Nat) : i + 1 + j = i + (j + 1) := by omega
    have hnext (g₁ : γ) : seek gen want stuck fuel (i + 1, g₁) =
        skip gen d g₁ >>= fun g₂ => gen g₂ >>= fun r => .ok (r.1, (i + 1 + d + 1, r.2)) :=
      ih (fun j hj => by rw [hshift]; exact hskip _ (by omega)) (by rw [hshift]; exact hwant)
        (by omega)
    simp only [seek, skip, hfirst, Bool.false_eq_true, if_false, hnext, bind_assoc, hshift]

theorem strided_succ {stride k n : Nat} {xs ys : List α} {x : α} (hxs : xs.length = k)
    (hstride : 0 < stride) :
    strided stride k (n + 1) (xs ++ x :: ys) = x :: strided stride (stride - 1) n ys := by
  have hlast : (xs ++ x :: ys)[k + 0 * stride]? = some x := by simp [← hxs]
  rw [strided, List.range_succ_eq_map,
    List.filterMap_cons_some (f := fun i => (xs ++ x :: ys)[k + i * stride]?) hlast,
    List.filterMap_map]
  refine congrArg (x :: ·) (List.filterMap_congr fun i _ => ?_)
  have hindex : k + (i + 1) * stride = k + 1 + (stride - 1 + i * stride) := by
    rw [Nat.succ_mul]
    omega
  change (xs ++ x :: ys)[k + (i + 1) * stride]? = ys[stride - 1 + i * stride]?
  have hrest : k + 1 + (stride - 1 + i * stride) - xs.length = stride - 1 + i * stride + 1 := by
    omega
  rw [hindex, List.getElem?_append_right (by omega), hrest, List.getElem?_cons_succ]

theorem mod_next {stride k j : Nat} (hk : k < stride) :
    (k + 1 + j) % stride = k ↔ j % stride = stride - 1 := by
  have hr := Nat.mod_lt j (Nat.zero_lt_of_lt hk)
  rw [← Nat.add_mod_mod]
  by_cases h : k + 1 + j % stride < stride
  · rw [Nat.mod_eq_of_lt h]
    omega
  · rw [Nat.mod_eq_sub_mod (by omega), Nat.mod_eq_of_lt (by omega)]
    omega

theorem collect_one : collect gen 1 g = gen g >>= fun r => .ok ([r.1], r.2) := rfl

theorem collect_seek_succ {stride fuel i k n : Nat} (hk : k < stride) (hfuel : stride ≤ fuel)
    (hwant : ∀ j, want (i + j) = decide (j % stride = k))
    (hrest : ∀ g₁, collect (seek gen want stuck fuel) n (i + k + 1, g₁) =
      collect gen (n * stride) g₁ >>= fun r =>
        .ok (strided stride (stride - 1) n r.1, (i + k + 1 + n * stride, r.2))) :
    collect (seek gen want stuck fuel) (n + 1) (i, g) =
      collect gen (k + 1 + n * stride) g >>= fun r =>
        .ok (strided stride k (n + 1) r.1, (i + (k + 1 + n * stride), r.2)) := by
  have hseek : seek gen want stuck fuel (i, g) =
      collect gen k g >>= fun a => gen a.2 >>= fun r => .ok (r.1, (i + k + 1, r.2)) := by
    refine seek_eq (fun j hj => ?_) ?_ (by omega)
    · rw [hwant, Nat.mod_eq_of_lt (by omega)]
      exact decide_eq_false (by omega)
    · rw [hwant, Nat.mod_eq_of_lt hk]
      exact decide_eq_true rfl
  rw [collect, hseek]
  simp only [collect_add, collect_one, bind_assoc, ok_bind, hrest]
  cases hfirst : collect gen k g with
  | error e => rfl
  | ok a =>
    simp only [ok_bind]
    cases hnext : gen a.2 with
    | error e => rfl
    | ok r =>
      simp only [ok_bind]
      cases hothers : collect gen (n * stride) r.2 with
      | error e => rfl
      | ok b =>
        have hlength := length_of_collect hfirst
        have hindex : i + k + 1 + n * stride = i + (k + 1 + n * stride) := by omega
        simp only [ok_bind]
        rw [List.append_assoc, List.singleton_append, strided_succ hlength (by omega), hindex]

theorem collect_seek_cycle {stride fuel i : Nat} (hstride : 0 < stride) (hfuel : stride ≤ fuel)
    (hwant : ∀ j, want (i + j) = decide (j % stride = stride - 1)) (n : Nat) :
    collect (seek gen want stuck fuel) n (i, g) =
      collect gen (n * stride) g >>= fun r =>
        .ok (strided stride (stride - 1) n r.1, (i + n * stride, r.2)) := by
  induction n generalizing i g with
  | zero =>
    rw [Nat.zero_mul]
    rfl
  | succ n ih =>
    have hlast : stride - 1 < stride := by omega
    have htotal : stride - 1 + 1 + n * stride = (n + 1) * stride := by
      rw [Nat.succ_mul]
      omega
    rw [collect_seek_succ hlast hfuel hwant fun g₁ => ih fun j => ?_, htotal]
    rw [Nat.add_assoc, Nat.add_assoc, hwant, ← Nat.add_assoc]
    exact decide_eq_decide.2 (mod_next hlast)

variable (gen stuck g) in
/-- A shard that has `k` positions to its next element takes its elements in strides. -/
theorem collect_seek {stride fuel i k : Nat} (hk : k < stride) (hfuel : stride ≤ fuel)
    (hwant : ∀ j, want (i + j) = decide (j % stride = k)) (n : Nat) :
    collect (seek gen want stuck fuel) (n + 1) (i, g) =
      collect gen (k + 1 + n * stride) g >>= fun r =>
        .ok (strided stride k (n + 1) r.1, (i + (k + 1 + n * stride), r.2)) := by
  refine collect_seek_succ hk hfuel hwant fun g₁ => ?_
  refine collect_seek_cycle (by omega) hfuel (fun j => ?_) n
  rw [Nat.add_assoc, Nat.add_assoc, hwant, ← Nat.add_assoc]
  exact decide_eq_decide.2 (mod_next hk)

theorem collect_take {m n : Nat} {r : List α × γ} (h : collect gen (m + n) g = .ok r) :
    ∃ g₁, collect gen m g = .ok (r.1.take m, g₁) := by
  rw [collect_add] at h
  obtain ⟨a, ha, h⟩ := bind_eq_ok.1 h
  obtain ⟨b, -, h⟩ := bind_eq_ok.1 h
  cases h
  exact ⟨a.2, by rw [ha, List.take_left' (length_of_collect ha)]⟩

theorem strided_take {stride k n m : Nat} {xs : List α} (h : k + n * stride < m) :
    strided stride k (n + 1) (xs.take m) = strided stride k (n + 1) xs := by
  refine List.filterMap_congr fun i hi => ?_
  have hle : i * stride ≤ n * stride :=
    Nat.mul_le_mul_right stride (Nat.le_of_lt_succ (List.mem_range.1 hi))
  exact List.getElem?_take_of_lt (by omega)

theorem strided_forall₂ {β : Type} {R : α → β → Prop} {xs : List α} {ys : List β}
    (h : List.Forall₂ R xs ys) (stride k n : Nat) :
    List.Forall₂ R (strided stride k n xs) (strided stride k n ys) := by
  unfold strided
  induction List.range n with
  | nil => exact .nil
  | cons i l ih =>
    have hlength := h.length_eq
    by_cases hi : k + i * stride < xs.length
    · have hx := List.getElem?_eq_getElem hi
      have hy := List.getElem?_eq_getElem (hlength ▸ hi)
      rw [List.filterMap_cons_some (f := fun i => xs[k + i * stride]?) hx,
        List.filterMap_cons_some (f := fun i => ys[k + i * stride]?) hy]
      exact .cons (h.get hi (hlength ▸ hi)) ih
    · have hx := List.getElem?_eq_none (Nat.not_lt.1 hi)
      have hy := List.getElem?_eq_none (hlength ▸ Nat.not_lt.1 hi)
      rw [List.filterMap_cons_none (f := fun i => xs[k + i * stride]?) hx,
        List.filterMap_cons_none (f := fun i => ys[k + i * stride]?) hy]
      exact ih

theorem flatMap_strides_perm (stride n : Nat) :
    ((List.range stride).flatMap fun k => (List.range n).map fun i => k + i * stride).Perm
      (List.range (n * stride)) := by
  rw [List.perm_ext_iff_of_nodup]
  · intro j
    simp only [List.mem_flatMap, List.mem_map, List.mem_range]
    constructor
    · intro ⟨k, hk, i, hi, hj⟩
      have hle : (i + 1) * stride ≤ n * stride := Nat.mul_le_mul_right stride hi
      rw [Nat.succ_mul] at hle
      omega
    · intro hj
      have hstride : 0 < stride := Nat.pos_of_mul_pos_left (Nat.zero_lt_of_lt hj)
      refine ⟨j % stride, Nat.mod_lt j hstride, j / stride, ?_, Nat.mod_add_div' j stride⟩
      exact (Nat.div_lt_iff_lt_mul hstride).2 hj
  · refine List.nodup_flatMap.2 ⟨fun k hk => ?_, ?_⟩
    · have hstride := Nat.zero_lt_of_lt (List.mem_range.1 hk)
      refine List.nodup_range.map fun i i' h => ?_
      exact Nat.eq_of_mul_eq_mul_right hstride (Nat.add_left_cancel h)
    · refine List.pairwise_lt_range.imp_of_mem fun {k k'} hk hk' hlt => ?_
      intro j hj hj'
      obtain ⟨i, -, rfl⟩ := List.mem_map.1 hj
      obtain ⟨i', -, h⟩ := List.mem_map.1 hj'
      have hmod := congrArg (· % stride) h
      simp only [Nat.add_mul_mod_self_right, Nat.mod_eq_of_lt (List.mem_range.1 hk),
        Nat.mod_eq_of_lt (List.mem_range.1 hk')] at hmod
      omega
  · exact List.nodup_range

theorem filterMap_getElem? {n : Nat} {xs : List α} (hxs : xs.length = n) :
    (List.range n).filterMap (fun j => xs[j]?) = xs := by
  have hsome : (List.range n).map (fun j => xs[j]?) = xs.map some := by
    refine List.ext_getElem (by simp [hxs]) fun j hj hj' => ?_
    rw [List.length_map] at hj'
    simp [hj']
  have hid := congrArg (List.filterMap id) hsome
  rw [List.filterMap_map, List.filterMap_map] at hid
  exact hid.trans List.filterMap_some

theorem strided_one {n : Nat} {xs : List α} (hxs : xs.length = n) : strided 1 0 n xs = xs := by
  simp only [strided, Nat.zero_add, Nat.mul_one]
  exact filterMap_getElem? hxs

theorem flatMap_strided_perm {stride n : Nat} {xs : List α} (hxs : xs.length = n * stride) :
    ((List.range stride).flatMap fun k => strided stride k n xs).Perm xs := by
  have hperm := (flatMap_strides_perm stride n).filterMap fun j => xs[j]?
  rw [filterMap_getElem? hxs, List.filterMap_flatMap] at hperm
  simp only [List.filterMap_map] at hperm
  exact hperm

end NuzlockeSolver.Sharding
