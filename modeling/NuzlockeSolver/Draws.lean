import Mathlib.Algebra.Order.Field.Basic
import Mathlib.Algebra.BigOperators.Field
import Mathlib.Algebra.Order.BigOperators.Group.List
import Mathlib.Data.List.MinMax
import Mathlib.Tactic.Linarith
import NuzlockeSolver.WeightedList

/-!
# Independent draws

Lists of independent draws: reordering, restriction and positivity. Then the leaders of a list of
scored keys, and the law of the marks of the highest draws, level by level.
-/

namespace NuzlockeSolver.WeightedList

section DrawAll

variable {R : Type*} [CommSemiring R] {α β γ : Type*}

theorem avg_drawAll_congr {f f' : α → List (β × R)} {l : List α}
    (h : ∀ a ∈ l, ∀ g, avg (f a) g = avg (f' a) g) (g : List β → R) :
    avg (drawAll f l) g = avg (drawAll f' l) g := by
  induction l generalizing g with
  | nil => simp
  | cons a l ih =>
    rw [avg_drawAll_cons, avg_drawAll_cons, h a List.mem_cons_self]
    apply avg_congr
    intro bw _
    apply ih
    intro a' ha'
    exact h a' (List.mem_cons_of_mem _ ha')

theorem avg_drawAll_map (f : β → List (γ × R)) (r : α → β) (l : List α) (g : List γ → R) :
    avg (drawAll f (l.map r)) g = avg (drawAll (fun a => f (r a)) l) g := by
  induction l generalizing g with
  | nil => simp
  | cons a l ih => simp only [List.map_cons, avg_drawAll_cons, ih]

theorem avg_map (W : List (α × R)) (r : α → β) (g : β → R) :
    avg (W.map fun aw => (r aw.1, aw.2)) g = avg W fun a => g (r a) := by
  induction W with
  | nil => rfl
  | cons aw W ih => rw [List.map_cons, avg_cons, avg_cons, ih]

theorem avg_drawAll_outcomes (f : α → List (β × R)) (r : β → γ) (l : List α) (g : List γ → R) :
    avg (drawAll f l) (fun bs => g (bs.map r)) =
      avg (drawAll (fun a => (f a).map fun bw => (r bw.1, bw.2)) l) g := by
  induction l generalizing g with
  | nil => simp
  | cons a l ih => simp only [avg_drawAll_cons, avg_map, List.map_cons, ← ih]

/-- A draw that remembers its source. -/
def keyed (f : α → List (β × R)) (a : α) : List ((α × β) × R) :=
  (f a).map fun bw => ((a, bw.1), bw.2)

theorem avg_keyed (f : α → List (β × R)) (a : α) (g : α × β → R) :
    avg (keyed f a) g = avg (f a) fun b => g (a, b) := avg_map (f a) (a, ·) g

theorem avg_drawAll_zip (f : α → List (β × R)) (l : List α) (g : List (α × β) → R) :
    avg (drawAll f l) (fun bs => g (l.zip bs)) = avg (drawAll (keyed f) l) g := by
  induction l generalizing g with
  | nil => simp
  | cons a l ih => simp only [avg_drawAll_cons, avg_keyed, List.zip_cons_cons, ← ih]

/-- The order of the draws does not matter to what ignores the order of the outcomes. -/
theorem avg_drawAll_perm {l l' : List α} (h : l.Perm l') (f : α → List (β × R))
    {g : List β → R} (hg : ∀ bs bs', bs.Perm bs' → g bs = g bs') :
    avg (drawAll f l) g = avg (drawAll f l') g := by
  induction h generalizing g with
  | nil => rfl
  | cons a _ ih =>
    simp only [avg_drawAll_cons]
    apply avg_congr
    intro bw _
    apply ih
    intro bs bs' hbs
    exact hg _ _ (hbs.cons _)
  | swap a b l =>
    simp only [avg_drawAll_cons]
    rw [avg_comm]
    apply avg_congr
    intro bw _
    apply avg_congr
    intro cw _
    apply avg_congr
    intro bs _
    exact hg _ _ (List.Perm.swap _ _ _)
  | trans _ _ ih ih' => rw [ih hg, ih' hg]

theorem avg_drawAll_filter (p : α → Bool) (f : α → List (β × R)) {l : List α}
    (hf : ∀ a ∈ l, p a = false → mass (f a) = 1) (g : List (α × β) → R) :
    avg (drawAll (keyed f) l) (fun bs => g (bs.filter (p ·.1))) =
      avg (drawAll (keyed f) (l.filter p)) g := by
  induction l generalizing g with
  | nil => simp
  | cons a l ih =>
    have hl : ∀ b ∈ l, p b = false → mass (f b) = 1 :=
      fun b hb => hf b (List.mem_cons_of_mem _ hb)
    rw [avg_drawAll_cons, avg_keyed]
    cases hp : p a with
    | true =>
      simp only [List.filter_cons, hp, if_true, avg_drawAll_cons, avg_keyed]
      apply avg_congr
      intro bw _
      exact ih hl fun bs => g ((a, bw.1) :: bs)
    | false =>
      simp only [List.filter_cons, hp, Bool.false_eq_true, if_false]
      rw [avg_const, hf a List.mem_cons_self hp, one_mul]
      exact ih hl g

theorem mass_eq_avg (W : List (α × R)) : mass W = avg W fun _ => 1 := by
  rw [avg_const, mul_one]

theorem mass_andThen {W : List (α × R)} {f : α → List (β × R)}
    (hf : ∀ aw ∈ W, mass (f aw.1) = 1) : mass (andThen W f) = mass W := by
  rw [mass_eq_avg, avg_andThen, mass_eq_avg W]
  apply avg_congr
  intro aw haw
  rw [← mass_eq_avg, hf aw haw]

theorem mass_point (a : α) : mass (point a : List (α × R)) = 1 := by
  simp [mass, point]

theorem mass_drawAll {f : α → List (β × R)} {l : List α} (hf : ∀ a ∈ l, mass (f a) = 1) :
    mass (drawAll f l) = 1 := by
  induction l with
  | nil => exact mass_point _
  | cons a l ih =>
    have hrest : mass (drawAll f l) = 1 := ih fun b hb => hf b (List.mem_cons_of_mem _ hb)
    rw [drawAll, mass_andThen, hf a List.mem_cons_self]
    intro bw _
    rw [mass_andThen, hrest]
    intro bsw _
    exact mass_point _

theorem mass_keyed (f : α → List (β × R)) (a : α) : mass (keyed f a) = mass (f a) := by
  simp [mass, keyed, Function.comp_def]

end DrawAll

section Outcomes

variable {R : Type*} [CommSemiring R] {α β : Type*}

def outcomes (W : List (α × R)) : List α := W.map (·.1)

theorem mem_outcomes_andThen {W : List (α × R)} {f : α → List (β × R)} {b : β} :
    b ∈ outcomes (andThen W f) ↔ ∃ a ∈ outcomes W, b ∈ outcomes (f a) := by
  simp only [outcomes, andThen, List.map_flatMap, List.mem_flatMap, List.map_map, List.mem_map,
    Function.comp_apply]
  constructor
  · rintro ⟨aw, haw, bw, hbw, rfl⟩
    exact ⟨aw.1, ⟨aw, haw, rfl⟩, bw, hbw, rfl⟩
  · rintro ⟨_, ⟨aw, haw, rfl⟩, bw, hbw, rfl⟩
    exact ⟨aw, haw, bw, hbw, rfl⟩

theorem mem_outcomes_point {a b : α} : b ∈ outcomes (point a : List (α × R)) ↔ b = a :=
  List.mem_singleton

theorem mem_outcomes_drawAll {f : α → List (β × R)} {l : List α} {bs : List β} :
    bs ∈ outcomes (drawAll f l) ↔ List.Forall₂ (fun a b => b ∈ outcomes (f a)) l bs := by
  induction l generalizing bs with
  | nil => rw [drawAll, mem_outcomes_point, List.forall₂_nil_left_iff]
  | cons a l ih =>
    simp only [drawAll, mem_outcomes_andThen, mem_outcomes_point, ih, List.forall₂_cons_left_iff]
    constructor
    · rintro ⟨b, hb, bs, hbs, rfl⟩
      exact ⟨b, bs, hb, hbs, rfl⟩
    · rintro ⟨b, bs, hb, hbs, rfl⟩
      exact ⟨b, hb, bs, hbs, rfl⟩

theorem exists_of_forall₂ {r : α → β → Prop} {l : List α} {bs : List β} (h : List.Forall₂ r l bs)
    {b : β} (hb : b ∈ bs) : ∃ a ∈ l, r a b := by
  induction h with
  | nil => cases hb
  | cons hhead _ ih =>
    obtain rfl | hb := List.mem_cons.1 hb
    · exact ⟨_, List.mem_cons_self, hhead⟩
    · obtain ⟨a, ha, hb⟩ := ih hb
      exact ⟨a, List.mem_cons_of_mem _ ha, hb⟩

theorem source_of_mem_outcomes {f : α → List (β × R)} {l : List α} {bs : List β}
    (h : bs ∈ outcomes (drawAll f l)) {b : β} (hb : b ∈ bs) : ∃ a ∈ l, b ∈ outcomes (f a) :=
  exists_of_forall₂ (mem_outcomes_drawAll.1 h) hb

theorem length_of_mem_outcomes {f : α → List (β × R)} {l : List α} {bs : List β}
    (h : bs ∈ outcomes (drawAll f l)) : bs.length = l.length :=
  (mem_outcomes_drawAll.1 h).length_eq.symm

theorem map_mem_outcomes {f : α → List (β × R)} {l : List α} {choice : α → β}
    (h : ∀ a ∈ l, choice a ∈ outcomes (f a)) : l.map choice ∈ outcomes (drawAll f l) := by
  rw [mem_outcomes_drawAll, List.forall₂_map_right_iff]
  exact List.forall₂_same.2 h

omit [CommSemiring R] in
theorem outcomes_keyed (f : α → List (β × R)) (a : α) :
    outcomes (keyed f a) = (outcomes (f a)).map (a, ·) := by
  simp only [outcomes, keyed, List.map_map]
  rfl

theorem keys_of_mem_outcomes {f : α → List (β × R)} {l : List α} {ps : List (α × β)}
    (h : ps ∈ outcomes (drawAll (keyed f) l)) : ps.map (·.1) = l := by
  have hforall := mem_outcomes_drawAll.1 h
  clear h
  induction hforall with
  | nil => rfl
  | cons hhead _ ih =>
    rw [outcomes_keyed] at hhead
    obtain ⟨b, -, rfl⟩ := List.mem_map.1 hhead
    rw [List.map_cons, ih]

end Outcomes

section Positive

variable {K : Type*} [Field K] [LinearOrder K] [IsStrictOrderedRing K] {α β : Type*}

def Positive (W : List (α × K)) : Prop := ∀ aw ∈ W, 0 < aw.2

theorem Positive.avg_nonneg {W : List (α × K)} (hW : Positive W) {f : α → K}
    (hf : ∀ a ∈ outcomes W, 0 ≤ f a) : 0 ≤ avg W f := by
  apply List.sum_nonneg
  intro x hx
  obtain ⟨aw, haw, rfl⟩ := List.mem_map.1 hx
  exact mul_nonneg (hW aw haw).le (hf _ (List.mem_map_of_mem haw))

theorem Positive.eq_zero_of_avg {W : List (α × K)} (hW : Positive W) {f : α → K}
    (hf : ∀ a ∈ outcomes W, 0 ≤ f a) (h : avg W f = 0) : ∀ a ∈ outcomes W, f a = 0 := by
  induction W with
  | nil =>
    intro a ha
    cases ha
  | cons aw W ih =>
    have hW' : Positive W := fun bw hbw => hW bw (List.mem_cons_of_mem _ hbw)
    have hf' : ∀ a ∈ outcomes W, 0 ≤ f a := fun a ha => hf a (List.mem_cons_of_mem _ ha)
    have hpos : 0 < aw.2 := hW aw List.mem_cons_self
    have hhead : 0 ≤ aw.2 * f aw.1 := mul_nonneg hpos.le (hf _ List.mem_cons_self)
    have htail : 0 ≤ avg W f := hW'.avg_nonneg hf'
    rw [avg_cons] at h
    intro a ha
    obtain rfl | ha := List.mem_cons.1 ha
    · have hzero : aw.2 * f aw.1 = 0 := by linarith
      exact (mul_eq_zero.1 hzero).resolve_left hpos.ne'
    · exact ih hW' hf' (by linarith) a ha

theorem Positive.andThen {W : List (α × K)} {f : α → List (β × K)} (hW : Positive W)
    (hf : ∀ a ∈ outcomes W, Positive (f a)) : Positive (andThen W f) := by
  intro bw hbw
  obtain ⟨aw, haw, hbw⟩ := List.mem_flatMap.1 hbw
  obtain ⟨cw, hcw, rfl⟩ := List.mem_map.1 hbw
  exact mul_pos (hW aw haw) (hf aw.1 (List.mem_map_of_mem haw) cw hcw)

theorem positive_point (a : α) : Positive (point a : List (α × K)) := by
  intro aw haw
  rw [List.mem_singleton.1 haw]
  exact one_pos

theorem positive_drawAll {f : α → List (β × K)} {l : List α} (hf : ∀ a ∈ l, Positive (f a)) :
    Positive (drawAll f l) := by
  induction l with
  | nil => exact positive_point _
  | cons a l ih =>
    apply (hf a List.mem_cons_self).andThen
    intro b _
    apply (ih fun a' ha' => hf a' (List.mem_cons_of_mem _ ha')).andThen
    intro bs _
    exact positive_point _

omit [IsStrictOrderedRing K] in
theorem Positive.keyed {f : α → List (β × K)} {a : α} (h : Positive (f a)) :
    Positive (keyed f a) := by
  intro bw hbw
  obtain ⟨cw, hcw, rfl⟩ := List.mem_map.1 hbw
  exact h cw hcw

end Positive

section Leaders

variable {κ ι β : Type*} [LinearOrder β]

def leaders (L : List (κ × β)) : List κ :=
  (L.filter fun kb => decide (∀ kc ∈ L, kc.2 ≤ kb.2)).map (·.1)

theorem leaders_perm {L L' : List (κ × β)} (h : L.Perm L') : (leaders L).Perm (leaders L') := by
  have hcond : ∀ kb : κ × β, (∀ kc ∈ L, kc.2 ≤ kb.2) ↔ ∀ kc ∈ L', kc.2 ≤ kb.2 :=
    fun kb => forall_congr' fun kc => imp_congr_left h.mem_iff
  simp only [leaders, hcond]
  exact (h.filter _).map _

theorem leaders_map (r : κ → ι) (L : List (κ × β)) :
    leaders (L.map fun kb => (r kb.1, kb.2)) = (leaders L).map r := by
  simp only [leaders, List.filter_map, List.map_map, List.forall_mem_map, Function.comp_def]

theorem mem_leaders {L : List (κ × β)} {kb : κ × β} (h : kb ∈ L) (hmax : ∀ kc ∈ L, kc.2 ≤ kb.2) :
    kb.1 ∈ leaders L :=
  List.mem_map_of_mem (List.mem_filter.2 ⟨h, decide_eq_true hmax⟩)

theorem leaders_ne_nil {L : List (κ × β)} (h : L ≠ []) : leaders L ≠ [] := by
  obtain ⟨kb, hkb⟩ : ∃ kb, kb ∈ L.argmax (·.2) := by
    cases hL : L.argmax (·.2) with
    | none => exact absurd (List.argmax_eq_none.1 hL) h
    | some kb => exact ⟨kb, rfl⟩
  have hmem := mem_leaders (List.argmax_mem hkb) fun kc hkc => List.le_of_mem_argmax hkc hkb
  exact List.ne_nil_of_mem hmem

theorem key_of_mem_leaders {L : List (κ × β)} {k : κ} (h : k ∈ leaders L) :
    ∃ kb ∈ L, kb.1 = k := by
  obtain ⟨kb, hkb, rfl⟩ := List.mem_map.1 h
  exact ⟨kb, List.mem_of_mem_filter hkb, rfl⟩

variable {K : Type*} [Field K] [DecidableEq κ] [DecidableEq ι]

def leaderShare (k : κ) (L : List (κ × β)) : K := (leaders L).count k / (leaders L).length

theorem leaderShare_perm (k : κ) {L L' : List (κ × β)} (h : L.Perm L') :
    (leaderShare k L : K) = leaderShare k L' := by
  rw [leaderShare, leaderShare, (leaders_perm h).count_eq, (leaders_perm h).length_eq]

theorem leaderShare_map {r : κ → ι} {k : κ} {L : List (κ × β)}
    (hr : ∀ kb ∈ L, r kb.1 = r k → kb.1 = k) :
    (leaderShare (r k) (L.map fun kb => (r kb.1, kb.2)) : K) = leaderShare k L := by
  have hcount : ((leaders L).map r).count (r k) = (leaders L).count k := by
    rw [List.count, List.count, List.countP_map]
    apply List.countP_congr
    intro k' hk'
    obtain ⟨kb, hkb, rfl⟩ := key_of_mem_leaders hk'
    simp only [Function.comp_apply, beq_iff_eq]
    exact ⟨hr kb hkb, congrArg r⟩
  rw [leaderShare, leaders_map, hcount, List.length_map, leaderShare]

theorem leaderShare_eq_zero {k : κ} {L : List (κ × β)} (h : ∀ kb ∈ L, kb.1 ≠ k) :
    (leaderShare k L : K) = 0 := by
  have hcount : (leaders L).count k = 0 := by
    apply List.count_eq_zero_of_not_mem
    intro hk
    obtain ⟨kb, hkb, hkey⟩ := key_of_mem_leaders hk
    exact h kb hkb hkey
  rw [leaderShare, hcount, Nat.cast_zero, zero_div]

theorem sum_leaderShare [CharZero K] {L : List (κ × β)} {keys : List κ} (hL : L ≠ [])
    (hkeys : keys.Nodup) (hmem : ∀ kb ∈ L, kb.1 ∈ keys) :
    (keys.map fun k => (leaderShare k L : K)).sum = 1 := by
  have hsum : ∑ k ∈ keys.toFinset, (leaders L).count k = (leaders L).length := by
    have hkey : ∀ k ∈ (leaders L : Multiset κ), k ∈ keys.toFinset := by
      intro k hk
      obtain ⟨kb, hkb, rfl⟩ := key_of_mem_leaders (Multiset.mem_coe.1 hk)
      exact List.mem_toFinset.2 (hmem kb hkb)
    simpa only [Multiset.coe_count, Multiset.coe_card] using Multiset.sum_count_eq_card hkey
  have hlen : ((leaders L).length : K) ≠ 0 :=
    Nat.cast_ne_zero.2 (mt List.length_eq_zero_iff.1 (leaders_ne_nil hL))
  rw [← List.sum_toFinset _ hkeys]
  simp only [leaderShare]
  rw [← Finset.sum_div, ← Nat.cast_sum, hsum, div_self hlen]

end Leaders

section Highest

variable {V K : Type*} [LinearOrder V] [Field K]

def marks (v : V) (vs : List V) : List Bool := vs.map fun x => decide (x = v)

def levelMark (v : V) (W : List (V × K)) : List (Bool × K) :=
  [(true, avg W fun x => if x = v then 1 else 0), (false, avg W fun x => if x < v then 1 else 0)]

theorem avg_levelMark (v : V) (W : List (V × K)) (g : Bool → K) :
    avg (levelMark v W) g = avg W fun x => if x ≤ v then g (decide (x = v)) else 0 := by
  rw [levelMark, avg_cons, avg_cons, avg_nil, add_zero, mul_comm, ← avg_mul, mul_comm, ← avg_mul,
    ← avg_add]
  apply avg_congr
  intro xw _
  obtain hlt | heq | hgt := lt_trichotomy xw.1 v
  · simp [hlt, hlt.le, hlt.ne]
  · simp [heq]
  · simp [hgt.not_gt, hgt.not_ge, hgt.ne']

theorem avg_drawAll_levelMark (v : V) (Ws : List (List (V × K))) (g : List Bool → K) :
    avg (drawAll (levelMark v) Ws) g =
      avg (drawAll id Ws) fun vs => if ∀ x ∈ vs, x ≤ v then g (marks v vs) else 0 := by
  induction Ws generalizing g with
  | nil => simp [marks]
  | cons W Ws ih =>
    rw [avg_drawAll_cons, avg_drawAll_cons, avg_levelMark]
    apply avg_congr
    intro xw _
    rw [ih]
    by_cases hx : xw.1 ≤ v
    · rw [if_pos hx]
      apply avg_congr
      intro vs _
      simp only [List.forall_mem_cons, hx, true_and]
      rfl
    · rw [if_neg hx]
      simp only [List.forall_mem_cons, hx, false_and, if_false]
      rw [avg_const, mul_zero]

theorem avg_sum {α β : Type*} (W : List (α × K)) (l : List β) (f : β → α → K) :
    (l.map fun b => avg W (f b)).sum = avg W fun a => (l.map fun b => f b a).sum := by
  induction l with
  | nil => simp [avg_const]
  | cons b l ih => simp only [List.map_cons, List.sum_cons, ih, avg_add]

theorem sum_single {α : Type*} [DecidableEq α] {l : List α} (h : l.Nodup) {a : α} (ha : a ∈ l)
    (f : α → K) : (l.map fun b => if a = b then f b else 0).sum = f a := by
  rw [← List.sum_toFinset _ h, Finset.sum_ite_eq, if_pos (List.mem_toFinset.2 ha)]

theorem avg_highest {Ws : List (List (V × K))} {levels : List V} (hlevels : levels.Nodup)
    {top : List V → V}
    (htop : ∀ vs ∈ outcomes (drawAll id Ws), top vs ∈ vs ∧ ∀ x ∈ vs, x ≤ top vs)
    (hmem : ∀ vs ∈ outcomes (drawAll id Ws), top vs ∈ levels) (g : V → List Bool → K) :
    (levels.map fun v => avg (drawAll (levelMark v) Ws) fun bs =>
      if true ∈ bs then g v bs else 0).sum =
      avg (drawAll id Ws) fun vs => g (top vs) (marks (top vs) vs) := by
  simp only [avg_drawAll_levelMark]
  rw [avg_sum]
  apply avg_congr
  intro vw hvw
  have hvs : vw.1 ∈ outcomes (drawAll id Ws) := List.mem_map_of_mem hvw
  obtain ⟨htopMem, htopMax⟩ := htop _ hvs
  have hlevel : ∀ v, ((∀ x ∈ vw.1, x ≤ v) ∧ true ∈ marks v vw.1) ↔ top vw.1 = v := by
    intro v
    simp only [marks, List.mem_map, decide_eq_true_eq]
    constructor
    · rintro ⟨hle, x, hx, rfl⟩
      exact le_antisymm (hle _ htopMem) (htopMax _ hx)
    · rintro rfl
      exact ⟨htopMax, _, htopMem, rfl⟩
  rw [← sum_single hlevels (hmem _ hvs) fun v => g v (marks v vw.1)]
  simp only [← hlevel, ite_and]

end Highest

end NuzlockeSolver.WeightedList
