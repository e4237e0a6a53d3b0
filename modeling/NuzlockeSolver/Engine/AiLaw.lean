import Mathlib.Data.List.Perm.Basic
import NuzlockeSolver.Engine.AiConfigs
import NuzlockeSolver.Engine.AiLottery

/-!
# The law of the drawn move scores

The draws of the policy, rolls first and then one score for each move, are one law over scored
moves; the analytic probabilities before the switch gate are its shares of the highest score.
-/

namespace NuzlockeSolver

namespace Engine

open WeightedList

section LegalActions

variable {moves : List MoveData} {state : BattleState} {aiIdx : Int} {slot : Nat}

def LegalShape (a : ExecAction) : Prop :=
  a = makeMoveAction a.moveSlot ∨ a = struggleAction ∨ a.kind = actionSwitch

theorem legalShape_makeMoveAction (s : Int) : LegalShape (makeMoveAction s) := .inl rfl

theorem legalShape_struggleAction : LegalShape struggleAction := .inr (.inl rfl)

theorem legalShape_of_switch {a : ExecAction} (ha : a ∈ switchActions state aiIdx slot) :
    LegalShape a := .inr (.inr (kind_of_mem_switchActions ha))

theorem legalShape {a : ExecAction} (ha : a ∈ enumerateLegalActions moves state aiIdx slot) :
    LegalShape a := by
  unfold enumerateLegalActions at ha
  dsimp only at ha
  split at ha
  · exact List.mem_singleton.1 ha ▸ legalShape_makeMoveAction _
  split at ha
  · exact List.mem_singleton.1 ha ▸ legalShape_makeMoveAction _
  split at ha
  · exact List.mem_singleton.1 ha ▸ legalShape_makeMoveAction _
  split at ha
  · exact List.mem_singleton.1 ha ▸ legalShape_makeMoveAction _
  split at ha
  · obtain rfl | ha := List.mem_cons.1 ha
    · split
      · exact legalShape_makeMoveAction _
      · exact legalShape_struggleAction
    · exact legalShape_of_switch ha
  obtain ha | ha := List.mem_append.1 ha
  · obtain ha | ha := List.mem_append.1 ha
    · obtain ⟨s, -, rfl⟩ := List.mem_map.1 ha
      exact legalShape_makeMoveAction s
    · split at ha
      · exact legalShape_of_switch ha
      · cases ha
  · split at ha
    · exact List.mem_singleton.1 ha ▸ legalShape_struggleAction
    · cases ha

theorem exists_legal_move (moves : List MoveData) (state : BattleState) (aiIdx : Int) (slot : Nat) :
    ∃ a ∈ enumerateLegalActions moves state aiIdx slot, isMoveAction a = true := by
  unfold enumerateLegalActions
  dsimp only
  split
  · exact ⟨_, List.mem_singleton_self _, rfl⟩
  split
  · exact ⟨_, List.mem_singleton_self _, rfl⟩
  split
  · exact ⟨_, List.mem_singleton_self _, rfl⟩
  split
  · exact ⟨_, List.mem_singleton_self _, rfl⟩
  split
  · exact ⟨_, List.mem_cons_self, by split <;> rfl⟩
  cases hmoves : ([0, 1, 2, 3] : List Int).filter
      (moveSlotUsable moves state ((state.side aiIdx).mon (activeIdx state aiIdx slot))) with
  | nil => exact ⟨struggleAction, by simp, rfl⟩
  | cons s rest => exact ⟨makeMoveAction s, by simp, rfl⟩

theorem eq_of_moveSlot_eq {a b : ExecAction}
    (ha : LegalShape a) (hb : LegalShape b) (hmoveA : isMoveAction a = true)
    (hmoveB : isMoveAction b = true) (hslot : 0 ≤ a.moveSlot) (heq : a.moveSlot = b.moveSlot) :
    a = b := by
  have hmake : ∀ {c : ExecAction}, LegalShape c → isMoveAction c = true → 0 ≤ c.moveSlot →
      c = makeMoveAction c.moveSlot := by
    intro c hc hmove hpos
    obtain hc | rfl | hc := hc
    · exact hc
    · exact absurd hpos (by decide)
    · rw [isMoveAction, hc] at hmove
      exact absurd hmove (by decide)
  rw [hmake ha hmoveA hslot, hmake hb hmoveB (heq ▸ hslot), heq]

end LegalActions

section Entries

variable {moves : List MoveData} {state : BattleState} {aiIdx : Int}

theorem slot_of_damageEntry {a : ExecAction} {e : DamageEntry}
    (h : damageEntry moves state aiIdx a = some e) :
    e.slot = a.moveSlot ∧ isMoveAction a = true ∧ 0 ≤ a.moveSlot := by
  simp only [damageEntry] at h
  split at h
  · cases h
  · rename_i hmove
    rw [not_or, not_not, not_lt] at hmove
    refine ⟨?_, by simp [isMoveAction, hmove.1], hmove.2⟩
    cases hmd : moveDataGet moves (moveIdAt (activeMon state aiIdx) a.moveSlot) with
    | none =>
      simp only [hmd, ite_self] at h
      cases h
    | some md =>
      simp only [hmd] at h
      split_ifs at h
      · obtain ⟨rolls, -, rfl⟩ := Option.map_eq_some_iff.1 h
        rfl
      · rw [← Option.some.inj h]

theorem contextEntry_eq {actions : List ExecAction} (hshape : ∀ a ∈ actions, LegalShape a)
    {a : ExecAction} (ha : a ∈ actions) (hmove : isMoveAction a = true) :
    contextEntry (buildDamageContext moves state aiIdx actions) a =
      damageEntry moves state aiIdx a := by
  have hsame : ∀ e ∈ buildDamageContext moves state aiIdx actions, e.slot = a.moveSlot →
      damageEntry moves state aiIdx a = some e := by
    intro e he heq
    obtain ⟨b, hb, hentry⟩ := List.mem_filterMap.1 he
    obtain ⟨hslot, hmoveB, hpos⟩ := slot_of_damageEntry hentry
    rw [← eq_of_moveSlot_eq (hshape b hb) (hshape a ha) hmoveB hmove hpos (hslot ▸ heq)]
    exact hentry
  cases hfind : contextEntry (buildDamageContext moves state aiIdx actions) a with
  | some e =>
    exact (hsame e (List.mem_of_find?_eq_some hfind) (by simpa using List.find?_some hfind)).symm
  | none =>
    cases hentry : damageEntry moves state aiIdx a with
    | none => rfl
    | some e =>
      have he : e ∈ buildDamageContext moves state aiIdx actions :=
        List.mem_filterMap.2 ⟨a, ha, hentry⟩
      have hne := List.find?_eq_none.1 hfind e he
      exact absurd (slot_of_damageEntry hentry).1 (by simpa using hne)

end Entries

section Marks

variable (moves : List MoveData) (state : BattleState) (aiIdx : Int)

def drawnConfig (hp : Int) (raws : List Int) : DamageConfig :=
  let cs := raws.map (min · hp)
  let highest := marks (topDamage cs) cs
  { weight := 1, isHighest := highest, kills := highest.map fun h => h && topDamage cs == hp }

def slotDist (slots : HighestSlots) (exc : Bool) (a : ExecAction) : ScoreDist :=
  distAction moves state aiIdx a (if slots.highest.contains a.moveSlot then 1 else 0)
    (slots.highest.contains a.moveSlot && slots.kill.contains a.moveSlot) (aiFaster state aiIdx)
    (exc || !slots.kill.isEmpty)

theorem isLottery_slotDist (slots : HighestSlots) (exc : Bool) (a : ExecAction) :
    IsLottery (-50) (slotDist moves state aiIdx slots exc a) :=
  isLottery_distAction moves state aiIdx a _ _ _ _

theorem avg_sampleScore (slots : HighestSlots) (exc : Bool) {a : ExecAction}
    (ha : isMoveAction a = true) (f : Int → ℚ) :
    avg (sampleScore moves state aiIdx slots exc a) f =
      avg (slotDist moves state aiIdx slots exc a) f := by
  have hkind : a.kind ≠ actionSwitch := by
    rw [isMoveAction, beq_iff_eq] at ha
    rw [ha]
    decide
  rw [sampleScore, if_neg hkind]
  simp only [ha, Bool.true_and]
  exact avg_drawScore (isLottery_slotDist moves state aiIdx slots exc a) f

theorem contains_filter_zip {keys xs : List Int} (hkeys : keys.Nodup) (q : Int → Bool) {j : Nat}
    {k x : Int} (hk : keys[j]? = some k) (hx : xs[j]? = some x) :
    (((keys.zip xs).filter (q ·.2)).map (·.1)).contains k = q x := by
  rw [Bool.eq_iff_iff, List.contains_iff_mem, List.mem_map]
  constructor
  · rintro ⟨⟨k', x'⟩, hmem, rfl⟩
    obtain ⟨hmem, hq⟩ := List.mem_filter.1 hmem
    obtain ⟨j', hj'⟩ := List.mem_iff_getElem?.1 hmem
    obtain ⟨hk', hx'⟩ := List.getElem?_zip_eq_some.1 hj'
    have hj : j' = j := by
      obtain ⟨hlt, -⟩ := List.getElem?_eq_some_iff.1 hk'
      exact (List.getElem?_inj hlt hkeys).1 (hk'.trans hk.symm)
    rw [hj, hx] at hx'
    rw [Option.some.inj hx']
    exact hq
  · intro hq
    refine ⟨(k, x), List.mem_filter.2 ⟨?_, hq⟩, rfl⟩
    exact List.mem_of_getElem? (List.getElem?_zip_eq_some.2 ⟨hk, hx⟩)

theorem not_contains_filter_zip {keys xs : List Int} (q : Int × Int → Bool) {k : Int}
    (hk : k ∉ keys) : (((keys.zip xs).filter q).map (·.1)).contains k = false := by
  rw [← Bool.not_eq_true, List.contains_iff_mem]
  intro hcontains
  obtain ⟨⟨k', x⟩, hmem, rfl⟩ := List.mem_map.1 hcontains
  exact hk (List.of_mem_zip (List.mem_of_mem_filter hmem)).1

theorem map_slotDist_damaging {damaging : List (ExecAction × Nat)} {raws : List Int} (hp : Int)
    (exc : Bool) (hnodup : (damaging.map (·.1.moveSlot)).Nodup)
    (hlength : raws.length = damaging.length)
    (hentry : ∀ ai ∈ damaging, (damageEntry moves state aiIdx ai.1).isSome) :
    damaging.map (fun ai => slotDist moves state aiIdx
      (highestSlots (damaging.map (·.1.moveSlot)) raws hp) exc ai.1) =
      damagingDists moves state aiIdx damaging (drawnConfig hp raws) := by
  apply List.ext_getElem
  · simp [damagingDists, drawnConfig, marks, hlength]
  intro j hj _
  rw [List.length_map] at hj
  have hj' : j < raws.length := hlength ▸ hj
  obtain ⟨e, he⟩ := Option.isSome_iff_exists.1 (hentry _ (List.getElem_mem hj))
  have hkey : (damaging.map (·.1.moveSlot))[j]? = some damaging[j].1.moveSlot := by
    rw [List.getElem?_map, List.getElem?_eq_getElem hj]
    rfl
  have hroll : raws[j]? = some raws[j] := List.getElem?_eq_getElem hj'
  have hhighest : (highestSlots (damaging.map (·.1.moveSlot)) raws hp).highest.contains
      damaging[j].1.moveSlot = decide (min raws[j] hp = topDamage (raws.map (min · hp))) :=
    contains_filter_zip hnodup (fun x => min x hp == topDamage (raws.map (min · hp))) hkey hroll
  have hkill : (highestSlots (damaging.map (·.1.moveSlot)) raws hp).kill.contains
      damaging[j].1.moveSlot = decide (hp ≤ raws[j]) :=
    contains_filter_zip hnodup (fun x => decide (hp ≤ x)) hkey hroll
  have hboth : (decide (min raws[j] hp = topDamage (raws.map (min · hp))) &&
      decide (hp ≤ raws[j])) = (decide (min raws[j] hp = topDamage (raws.map (min · hp))) &&
        topDamage (raws.map (min · hp)) == hp) := by
    grind
  simp only [List.getElem_map, slotDist, damagingDists, drawnConfig, marks, List.getElem_zip]
  rw [distAction_of_damageEntry moves state aiIdx he, hhighest, hkill, hboth]

theorem any_kills_drawnConfig {slots raws : List Int} (hp : Int)
    (hlength : raws.length = slots.length) :
    (drawnConfig hp raws).kills.any id = !(highestSlots slots raws hp).kill.isEmpty := by
  have hkill : (highestSlots slots raws hp).kill.isEmpty = false ↔ ∃ x ∈ raws, hp ≤ x := by
    rw [List.isEmpty_eq_false_iff, highestSlots, ne_eq, List.map_eq_nil_iff,
      List.filter_eq_nil_iff]
    push Not
    constructor
    · rintro ⟨sx, hsx, hle⟩
      exact ⟨sx.2, (List.of_mem_zip (a := sx.1) (b := sx.2) hsx).2, of_decide_eq_true hle⟩
    · rintro ⟨x, hx, hle⟩
      obtain ⟨j, hj⟩ := List.mem_iff_getElem?.1 hx
      obtain ⟨hlt, -⟩ := List.getElem?_eq_some_iff.1 hj
      have hs := List.getElem?_eq_getElem (hlength ▸ hlt)
      exact ⟨(_, x), List.mem_of_getElem? (List.getElem?_zip_eq_some.2 ⟨hs, hj⟩),
        decide_eq_true hle⟩
  have hany : (drawnConfig hp raws).kills.any id = true ↔ ∃ x ∈ raws, hp ≤ x := by
    simp only [drawnConfig, marks, List.any_map, List.any_eq_true, Function.comp_apply, id_eq,
      Bool.and_eq_true, decide_eq_true_eq, beq_iff_eq]
    constructor
    · rintro ⟨x, hx, heq, htop⟩
      exact ⟨x, hx, min_eq_right_iff.1 (heq.trans htop)⟩
    · rintro ⟨x, hx, hle⟩
      have hmem : min x hp ∈ raws.map (min · hp) := List.mem_map_of_mem hx
      obtain ⟨htop, hmax⟩ := topDamage_spec (List.ne_nil_of_mem hmem)
      obtain ⟨y, -, hy⟩ := List.mem_map.1 htop
      have heq : topDamage (raws.map (min · hp)) = hp := by
        refine le_antisymm (hy ▸ min_le_right y hp) ?_
        exact (min_eq_right hle).ge.trans (hmax _ hmem)
      exact ⟨x, hx, by rw [heq, min_eq_right hle], heq⟩
  grind

theorem map_slotDist_others {others : List (ExecAction × Nat)} {slots raws : List Int} (hp : Int)
    (exc : Bool) (hlength : raws.length = slots.length)
    (hothers : ∀ ai ∈ others, ai.1.moveSlot ∉ slots) :
    others.map (fun ai => slotDist moves state aiIdx (highestSlots slots raws hp) exc ai.1) =
      otherDists moves state aiIdx others (exc || (drawnConfig hp raws).kills.any id) := by
  refine List.map_congr_left fun ai hai => ?_
  have hhighest : (highestSlots slots raws hp).highest.contains ai.1.moveSlot = false :=
    not_contains_filter_zip _ (hothers ai hai)
  rw [slotDist, hhighest, any_kills_drawnConfig hp hlength]
  simp

end Marks

section Accumulate

theorem getElem?_foldl_add {α : Type} {step : List ℚ → α → List ℚ} {l : List α} {i : Nat}
    {f : α → ℚ} (hstep : ∀ a ∈ l, ∀ probs, (step probs a)[i]? = probs[i]?.map (· + f a))
    (probs : List ℚ) : (l.foldl step probs)[i]? = probs[i]?.map (· + (l.map f).sum) := by
  induction l generalizing probs with
  | nil => simp
  | cons a l ih =>
    rw [List.foldl_cons, ih fun b hb => hstep b (List.mem_cons_of_mem _ hb),
      hstep a List.mem_cons_self, Option.map_map, List.map_cons, List.sum_cons]
    refine congrArg (Option.map · _) (funext fun p => ?_)
    simp only [Function.comp_apply, add_assoc]

theorem maxScore_spec {scores : List Int} (hlow : ∀ s ∈ scores, -(2 ^ 31) ≤ s) (hne : scores ≠ []) :
    maxScore scores ∈ scores ∧ ∀ s ∈ scores, s ≤ maxScore scores := by
  have hfold : maxScore scores = (scores.max?).getD (-(2 ^ 31)) := by
    cases scores with
    | nil => exact absurd rfl hne
    | cons s rest =>
      rw [maxScore, List.foldl_cons, max_eq_right (hlow s List.mem_cons_self), List.max?_cons']
      rfl
  obtain ⟨top, htop⟩ := Option.isSome_iff_exists.1 (List.isSome_max?_iff.2 hne)
  rw [hfold, htop, Option.getD_some]
  exact List.max?_eq_some_iff.1 htop

theorem winners_eq_leaders {indices : List Nat} {scores : List Int}
    (hlength : indices.length = scores.length) (hlow : ∀ s ∈ scores, -(2 ^ 31) ≤ s) :
    winners indices scores = leaders (indices.zip scores) := by
  refine congrArg (List.map _) (List.filter_congr fun is his => ?_)
  have hmem : is.2 ∈ scores := (List.of_mem_zip (a := is.1) (b := is.2) his).2
  obtain ⟨htop, hmax⟩ := maxScore_spec hlow (List.ne_nil_of_mem hmem)
  obtain ⟨js, hjs, heq⟩ : ∃ js ∈ indices.zip scores, js.2 = maxScore scores := by
    obtain ⟨j, hj⟩ := List.mem_iff_getElem?.1 htop
    obtain ⟨hlt, -⟩ := List.getElem?_eq_some_iff.1 hj
    have hindex := List.getElem?_eq_getElem (hlength ▸ hlt)
    exact ⟨(_, _), List.mem_of_getElem? (List.getElem?_zip_eq_some.2 ⟨hindex, hj⟩), rfl⟩
  rw [Bool.eq_iff_iff, beq_iff_eq, decide_eq_true_iff]
  constructor
  · intro his ks hks
    rw [his]
    exact hmax _ (List.of_mem_zip (a := ks.1) (b := ks.2) hks).2
  · intro hall
    exact le_antisymm (hmax _ hmem) (heq ▸ hall js hjs)

theorem getElem?_foldl_modify (won : List Nat) (share : ℚ) (probs : List ℚ) (i : Nat) :
    (won.foldl (fun probs i => probs.modify i (· + share)) probs)[i]? =
      probs[i]?.map (· + won.count i * share) := by
  have hstep : ∀ k ∈ won, ∀ probs : List ℚ, (probs.modify k (· + share))[i]? =
      probs[i]?.map (· + if k == i then share else 0) := by
    intro k _ probs
    rw [List.getElem?_modify]
    by_cases hk : k = i
    · simp [hk]
    · simp [hk]
  rw [getElem?_foldl_add hstep]
  have hsum : (won.map fun k => if k == i then share else 0).sum = won.count i * share := by
    clear hstep
    induction won with
    | nil => simp
    | cons k won ih =>
      rw [List.map_cons, List.sum_cons, ih, List.count_cons]
      split <;> push_cast <;> ring
  rw [hsum]

theorem getElem?_addShares {indices : List Nat} {combo : ScoreDist} (rollWeight : ℚ)
    (hlength : indices.length = combo.length) (hlow : ∀ s ∈ combo.map (·.1), -(2 ^ 31) ≤ s)
    (probs : List ℚ) (i : Nat) :
    (addShares rollWeight indices probs combo)[i]? = probs[i]?.map
      (· + rollWeight * ((combo.map (·.2)).prod * leaderShare i (indices.zip (combo.map (·.1))))) := by
  have hwinners := winners_eq_leaders (hlength.trans (List.length_map _).symm) hlow
  rw [addShares]
  dsimp only
  split
  · rename_i hzero
    simp [← mul_assoc, hzero]
  · rw [getElem?_foldl_modify, hwinners]
    refine congrArg (Option.map · _) (funext fun p => ?_)
    rw [leaderShare]
    ring

theorem mem_cartesian {α : Type} {ls : List (List α)} {combo : List α} :
    combo ∈ cartesian ls ↔ List.Forall₂ (fun l a => a ∈ l) ls combo := by
  induction ls generalizing combo with
  | nil => simp [cartesian]
  | cons l ls ih =>
    simp only [cartesian, List.mem_flatMap, List.mem_map, ih, List.forall₂_cons_left_iff]
    constructor
    · rintro ⟨a, ha, rest, hrest, rfl⟩
      exact ⟨a, rest, ha, hrest, rfl⟩
    · rintro ⟨a, rest, ha, hrest, rfl⟩
      exact ⟨a, ha, rest, hrest, rfl⟩

theorem sum_cartesian (dists : List ScoreDist) (f : List Int → ℚ) :
    ((cartesian dists).map fun combo => (combo.map (·.2)).prod * f (combo.map (·.1))).sum =
      avg (drawAll id dists) f := by
  induction dists generalizing f with
  | nil => simp [cartesian]
  | cons d dists ih =>
    rw [avg_drawAll_cons, cartesian, List.map_flatMap, List.flatMap_def, List.sum_flatten,
      List.map_map, avg]
    refine congrArg List.sum (List.map_congr_left fun sp _ => ?_)
    rw [← ih, ← List.sum_map_mul_left, Function.comp_apply, List.map_map]
    refine congrArg List.sum (List.map_congr_left fun combo _ => ?_)
    simp only [Function.comp_apply, List.map_cons, List.prod_cons, mul_assoc]

theorem getElem?_accumulateWithOther {dmIndices otherIndices : List Nat}
    {dmDists otherDists : List ScoreDist} (rollWeight : ℚ)
    (hdm : dmIndices.length = dmDists.length) (hother : otherIndices.length = otherDists.length)
    (hlow : ∀ d ∈ dmDists ++ otherDists, IsLottery (-50) d) (probs : List ℚ) (i : Nat) :
    (accumulateWithOther rollWeight dmIndices dmDists otherIndices otherDists probs)[i]? =
      probs[i]?.map (· + rollWeight * avg (drawAll id (dmDists ++ otherDists)) fun scores =>
        leaderShare i ((dmIndices ++ otherIndices).zip scores)) := by
  have hstep : ∀ combo ∈ cartesian (dmDists ++ otherDists), ∀ probs : List ℚ,
      (addShares rollWeight (dmIndices ++ otherIndices) probs combo)[i]? = probs[i]?.map
        (· + rollWeight * ((combo.map (·.2)).prod *
          leaderShare i ((dmIndices ++ otherIndices).zip (combo.map (·.1))))) := by
    intro combo hcombo probs
    apply getElem?_addShares
    · rw [← (mem_cartesian.1 hcombo).length_eq, List.length_append, List.length_append, hdm, hother]
    · intro s hs
      obtain ⟨sp, hsp, rfl⟩ := List.mem_map.1 hs
      obtain ⟨d, hd, hmem⟩ := exists_of_forall₂ (mem_cartesian.1 hcombo) hsp
      have hle := (hlow d hd).low_le sp.1 (List.mem_map_of_mem hmem)
      omega
  rw [accumulateWithOther, getElem?_foldl_add hstep, List.sum_map_mul_left]
  rw [sum_cartesian (dmDists ++ otherDists) fun scores =>
    leaderShare i ((dmIndices ++ otherIndices).zip scores)]

end Accumulate

section Law

variable (moves : List MoveData) (state : BattleState) (aiIdx : Int)

theorem map_filterMap_of_some {α β γ : Type} {f : α → Option β} {r : β → γ} {s : α → γ}
    {l : List α} (h : ∀ a ∈ l, ∃ b, f a = some b ∧ r b = s a) :
    (l.filterMap f).map r = l.map s := by
  induction l with
  | nil => rfl
  | cons a l ih =>
    obtain ⟨b, hb, hr⟩ := h a List.mem_cons_self
    rw [List.filterMap_cons_some hb, List.map_cons, List.map_cons, hr,
      ih fun a' ha' => h a' (List.mem_cons_of_mem _ ha')]

theorem map_fst_indexed (actions : List ExecAction) : (indexed actions).map (·.1) = actions := by
  rw [indexed, List.zipIdx_map_fst]

def indexedMoves (actions : List ExecAction) : List (ExecAction × Nat) :=
  (indexed actions).filter (isMoveAction ·.1)

theorem mem_indexedMoves {actions : List ExecAction} {ai : ExecAction × Nat}
    (h : ai ∈ indexedMoves actions) : ai.1 ∈ actions ∧ isMoveAction ai.1 = true := by
  obtain ⟨hmem, hmove⟩ := List.mem_filter.1 h
  exact ⟨List.fst_mem_of_mem_zipIdx hmem, hmove⟩

theorem filterMap_damaging {actions : List ExecAction} (hshape : ∀ a ∈ actions, LegalShape a) :
    let ctx := buildDamageContext moves state aiIdx actions
    ((indexedMoves actions).filter fun ai => (contextEntry ctx ai.1).isSome).filterMap
      (fun ai => contextEntry ctx ai.1) = ctx := by
  intro ctx
  have hentry : ∀ ai ∈ indexedMoves actions,
      contextEntry ctx ai.1 = damageEntry moves state aiIdx ai.1 :=
    fun ai hai => contextEntry_eq hshape (mem_indexedMoves hai).1 (mem_indexedMoves hai).2
  have hmoves : (indexedMoves actions).filterMap (fun ai => damageEntry moves state aiIdx ai.1) =
      (indexed actions).filterMap fun ai => damageEntry moves state aiIdx ai.1 := by
    rw [indexedMoves, List.filterMap_filter]
    refine List.filterMap_congr fun ai _ => ?_
    cases he : damageEntry moves state aiIdx ai.1 with
    | none => exact ite_self _
    | some e => rw [if_pos (slot_of_damageEntry he).2.1]
  have hctx : (indexed actions).filterMap (fun ai => damageEntry moves state aiIdx ai.1) = ctx := by
    rw [← Function.comp_def (damageEntry moves state aiIdx) Prod.fst, ← List.filterMap_map,
      map_fst_indexed]
    rfl
  rw [List.filterMap_filter]
  refine Eq.trans (List.filterMap_congr fun ai hai => ?_) (hmoves.trans hctx)
  rw [hentry ai hai]
  cases damageEntry moves state aiIdx ai.1 with
  | none => rfl
  | some e => rfl

def scoreLaw (actions : List ExecAction) (hp : Int) (exc : Bool) :
    List (List (ExecAction × Int) × ℚ) :=
  let ctx := buildDamageContext moves state aiIdx actions
  andThen (sampleRolls ctx) fun raws =>
    drawAll (keyed (slotDist moves state aiIdx (highestSlots (ctx.map (·.slot)) raws hp) exc))
      (actions.filter isMoveAction)

def configShare (damaging others : List (ExecAction × Nat)) (exc : Bool) (i : Nat)
    (highest kills : List Bool) : ℚ :=
  avg (drawAll id (damagingDists moves state aiIdx damaging ⟨1, highest, kills⟩ ++
    otherDists moves state aiIdx others (exc || kills.any id))) fun scores =>
      leaderShare i ((damaging.map (·.2) ++ others.map (·.2)).zip scores)

theorem isLottery_damagingDists (damaging : List (ExecAction × Nat)) (cfg : DamageConfig) :
    ∀ d ∈ damagingDists moves state aiIdx damaging cfg, IsLottery (-50) d := by
  intro d hd
  obtain ⟨x, -, rfl⟩ := List.mem_map.1 hd
  exact isLottery_distAction moves state aiIdx _ _ _ _ _

theorem isLottery_otherDists (others : List (ExecAction × Nat)) (seesKill : Bool) :
    ∀ d ∈ otherDists moves state aiIdx others seesKill, IsLottery (-50) d := by
  intro d hd
  obtain ⟨x, -, rfl⟩ := List.mem_map.1 hd
  exact isLottery_distAction moves state aiIdx x.1 false _ _ _

theorem length_of_mem_iterDamageConfigs {arrays : List RollArray} {hp : Int} {cfg : DamageConfig}
    (h : cfg ∈ iterDamageConfigs arrays hp) :
    cfg.isHighest.length = arrays.length ∧ cfg.kills.length = arrays.length := by
  obtain ⟨v, -, hcfg⟩ := List.mem_flatMap.1 h
  obtain ⟨mask, -, rfl⟩ := List.mem_map.1 (List.mem_filter.1 hcfg).1
  simp [length_inHighest]

theorem getElem?_accumulate (damaging others : List (ExecAction × Nat)) (exc : Bool) (i : Nat)
    (cfg : DamageConfig) (hhighest : cfg.isHighest.length = damaging.length)
    (hkills : cfg.kills.length = damaging.length) (weight : ℚ) (probs : List ℚ) :
    (accumulateWithOther weight (damaging.map (·.2)) (damagingDists moves state aiIdx damaging cfg)
      (others.map (·.2)) (otherDists moves state aiIdx others (exc || cfg.kills.any id)) probs)[i]? =
      probs[i]?.map
        (· + weight * configShare moves state aiIdx damaging others exc i cfg.isHighest cfg.kills) := by
  apply getElem?_accumulateWithOther
  · simp [damagingDists, hhighest, hkills]
  · simp [otherDists]
  · intro d hd
    obtain hd | hd := List.mem_append.1 hd
    · exact isLottery_damagingDists moves state aiIdx damaging cfg d hd
    · exact isLottery_otherDists moves state aiIdx others _ d hd

def damagingMoves (actions : List ExecAction) (ctx : List DamageEntry) :
    List (ExecAction × Nat) :=
  (indexedMoves actions).filter fun ai => (contextEntry ctx ai.1).isSome

def otherMoves (actions : List ExecAction) (ctx : List DamageEntry) : List (ExecAction × Nat) :=
  (indexedMoves actions).filter fun ai => !(contextEntry ctx ai.1).isSome

def damagingRolls (actions : List ExecAction) (ctx : List DamageEntry) : List RollArray :=
  (damagingMoves actions ctx).filterMap fun ai => (contextEntry ctx ai.1).map (·.rolls)

theorem length_damagingRolls (actions : List ExecAction) (ctx : List DamageEntry) :
    (damagingRolls actions ctx).length = (damagingMoves actions ctx).length := by
  rw [damagingRolls, List.length_filterMap_eq_countP, List.countP_eq_length]
  intro ai hai
  simpa using (List.mem_filter.1 hai).2

theorem getElem?_moveProbs_config (actions : List ExecAction) (ctx : List DamageEntry) (hp : Int)
    (exc : Bool) (i : Nat) :
    (moveProbs moves state aiIdx actions ctx hp exc)[i]? = actions[i]?.map fun _ =>
      avg (drawAll rollDraw (damagingRolls actions ctx)) fun raws =>
        configShare moves state aiIdx (damagingMoves actions ctx) (otherMoves actions ctx) exc i
          (drawnConfig hp raws).isHighest (drawnConfig hp raws).kills := by
  have hlength := length_damagingRolls actions ctx
  have hzeros : (actions.map fun _ => (0 : ℚ))[i]? = actions[i]?.map fun _ => 0 :=
    List.getElem?_map
  have hunfold : moveProbs moves state aiIdx actions ctx hp exc =
      if (damagingMoves actions ctx).isEmpty then
        accumulateWithOther 1 [] [] ((otherMoves actions ctx).map (·.2))
          (otherDists moves state aiIdx (otherMoves actions ctx) exc) (actions.map fun _ => 0)
      else (iterDamageConfigs (damagingRolls actions ctx) hp).foldl (fun probs cfg =>
        accumulateWithOther cfg.weight ((damagingMoves actions ctx).map (·.2))
          (damagingDists moves state aiIdx (damagingMoves actions ctx) cfg)
          ((otherMoves actions ctx).map (·.2))
          (otherDists moves state aiIdx (otherMoves actions ctx) (exc || cfg.kills.any id)) probs)
          (actions.map fun _ => 0) := rfl
  rw [hunfold]
  split
  · rename_i hempty
    rw [List.isEmpty_iff] at hempty
    have hrolls : damagingRolls actions ctx = [] :=
      List.length_eq_zero_iff.1 (by rw [hlength, hempty, List.length_nil])
    have haccumulate := getElem?_accumulate moves state aiIdx [] (otherMoves actions ctx) exc i
      ⟨1, [], []⟩ rfl rfl 1 (actions.map fun _ => 0)
    rw [hempty, hrolls, drawAll, avg_point]
    simp only [List.any_nil, Bool.or_false, List.map_nil] at haccumulate
    refine Eq.trans haccumulate ?_
    rw [hzeros, Option.map_map]
    refine congrArg (Option.map · _) (funext fun _ => ?_)
    rw [Function.comp_apply, zero_add, one_mul]
    rfl
  · rename_i hempty
    rw [List.isEmpty_iff] at hempty
    have hrolls : damagingRolls actions ctx ≠ [] := by
      intro h
      rw [h, List.length_nil] at hlength
      exact hempty (List.length_eq_zero_iff.1 hlength.symm)
    have hstep : ∀ cfg ∈ iterDamageConfigs (damagingRolls actions ctx) hp, ∀ probs : List ℚ,
        (accumulateWithOther cfg.weight ((damagingMoves actions ctx).map (·.2))
          (damagingDists moves state aiIdx (damagingMoves actions ctx) cfg)
          ((otherMoves actions ctx).map (·.2)) (otherDists moves state aiIdx
            (otherMoves actions ctx) (exc || cfg.kills.any id)) probs)[i]? =
          probs[i]?.map (· + cfg.weight * configShare moves state aiIdx
            (damagingMoves actions ctx) (otherMoves actions ctx) exc i cfg.isHighest cfg.kills) := by
      intro cfg hcfg probs
      obtain ⟨hhighest, hkills⟩ := length_of_mem_iterDamageConfigs hcfg
      exact getElem?_accumulate moves state aiIdx _ _ exc i cfg (hhighest.trans hlength)
        (hkills.trans hlength) cfg.weight probs
    rw [getElem?_foldl_add hstep, hzeros, Option.map_map,
      sum_iterDamageConfigs hp hrolls fun highest kills => configShare moves state aiIdx
        (damagingMoves actions ctx) (otherMoves actions ctx) exc i highest kills]
    refine congrArg (Option.map · _) (funext fun _ => ?_)
    rw [Function.comp_apply, zero_add]
    rfl

theorem filter_isMoveAction (actions : List ExecAction) :
    actions.filter isMoveAction = (indexedMoves actions).map (·.1) := by
  have hfilter := List.filter_map (f := Prod.fst) (p := isMoveAction) (l := indexed actions)
  rw [map_fst_indexed] at hfilter
  exact hfilter

theorem getElem?_of_mem_indexed {actions : List ExecAction} {ai : ExecAction × Nat}
    (h : ai ∈ indexed actions) : actions[ai.2]? = some ai.1 :=
  List.mem_zipIdx_iff_getElem?.1 h

theorem avg_share_index {actions : List ExecAction} {l : List (ExecAction × Nat)}
    (hl : l ⊆ indexed actions) (dist : ExecAction → ScoreDist) {i : Nat} {a : ExecAction}
    (ha : actions[i]? = some a) :
    avg (drawAll (fun ai : ExecAction × Nat => dist ai.1) l)
      (fun scores => (leaderShare i ((l.map (·.2)).zip scores) : ℚ)) =
      avg (drawAll (keyed fun ai : ExecAction × Nat => dist ai.1) l) (leaderShare (a, i)) := by
  rw [← avg_drawAll_zip]
  apply avg_congr
  intro sw _
  have hzip : (l.map (·.2)).zip sw.1 = (l.zip sw.1).map fun kb => (kb.1.2, kb.2) := by
    rw [List.zip_map_left]
    rfl
  rw [hzip]
  apply leaderShare_map (r := Prod.snd) (k := (a, i))
  intro kb hkb hindex
  have hmem := getElem?_of_mem_indexed (hl (List.of_mem_zip (a := kb.1) (b := kb.2) hkb).1)
  rw [show kb.1.2 = i from hindex, ha] at hmem
  exact Prod.ext (Option.some.inj hmem).symm hindex

theorem avg_share_action {actions : List ExecAction} (hnodup : actions.Nodup)
    {l : List (ExecAction × Nat)} (hl : l ⊆ indexed actions) (dist : ExecAction → ScoreDist)
    {i : Nat} {a : ExecAction} (ha : actions[i]? = some a) :
    avg (drawAll (keyed dist) (l.map (·.1))) (leaderShare a) =
      (avg (drawAll (keyed fun ai : ExecAction × Nat => dist ai.1) l) (leaderShare (a, i)) : ℚ) := by
  rw [← avg_drawAll_zip, avg_drawAll_map, ← avg_drawAll_zip]
  apply avg_congr
  intro sw _
  have hzip : (l.map (·.1)).zip sw.1 = (l.zip sw.1).map fun kb => (kb.1.1, kb.2) := by
    rw [List.zip_map_left]
    rfl
  rw [hzip]
  apply leaderShare_map (r := Prod.fst) (k := (a, i))
  intro kb hkb haction
  have hmem := getElem?_of_mem_indexed (hl (List.of_mem_zip (a := kb.1) (b := kb.2) hkb).1)
  rw [show kb.1.1 = a from haction, ← ha] at hmem
  obtain ⟨hlt, -⟩ := List.getElem?_eq_some_iff.1 ha
  exact Prod.ext haction ((List.getElem?_inj hlt hnodup).1 hmem.symm).symm

theorem slots_of_context {actions : List ExecAction} (hshape : ∀ a ∈ actions, LegalShape a) :
    let ctx := buildDamageContext moves state aiIdx actions
    ctx.map (·.slot) = (damagingMoves actions ctx).map (·.1.moveSlot) := by
  intro ctx
  refine (congrArg (List.map _) (filterMap_damaging moves state aiIdx hshape)).symm.trans ?_
  apply map_filterMap_of_some
  intro ai hai
  obtain ⟨e, he⟩ := Option.isSome_iff_exists.1 (List.mem_filter.1 hai).2
  exact ⟨e, he, by simpa using List.find?_some he⟩

theorem rolls_of_context {actions : List ExecAction} (hshape : ∀ a ∈ actions, LegalShape a) :
    let ctx := buildDamageContext moves state aiIdx actions
    damagingRolls actions ctx = ctx.map (·.rolls) := by
  intro ctx
  refine Eq.trans ?_ (congrArg (List.map _) (filterMap_damaging moves state aiIdx hshape))
  rw [List.map_filterMap]
  rfl

theorem nodup_indexed (actions : List ExecAction) : (indexed actions).Nodup := by
  have hindices : ((indexed actions).map (·.2)).Nodup := by
    rw [indexed, List.zipIdx_map_snd]
    exact List.nodup_range'
  exact hindices.of_map _

theorem damageEntry_of_damaging {actions : List ExecAction}
    (hshape : ∀ a ∈ actions, LegalShape a) {ai : ExecAction × Nat}
    (hai : ai ∈ damagingMoves actions (buildDamageContext moves state aiIdx actions)) :
    (damageEntry moves state aiIdx ai.1).isSome := by
  obtain ⟨hmem, hsome⟩ := List.mem_filter.1 hai
  rwa [contextEntry_eq hshape (mem_indexedMoves hmem).1 (mem_indexedMoves hmem).2] at hsome

theorem nodup_damagingSlots {actions : List ExecAction} (hshape : ∀ a ∈ actions, LegalShape a)
    (hnodup : actions.Nodup) :
    ((damagingMoves actions (buildDamageContext moves state aiIdx actions)).map
      (·.1.moveSlot)).Nodup := by
  refine List.Nodup.map_on (fun ai hai bj hbj hslot => ?_) (((nodup_indexed actions).filter _).filter _)
  obtain ⟨e, he⟩ := Option.isSome_iff_exists.1 (damageEntry_of_damaging moves state aiIdx hshape hai)
  have hai' := mem_indexedMoves (List.mem_filter.1 hai).1
  have hbj' := mem_indexedMoves (List.mem_filter.1 hbj).1
  have haction : ai.1 = bj.1 := eq_of_moveSlot_eq (hshape _ hai'.1) (hshape _ hbj'.1) hai'.2 hbj'.2
    (slot_of_damageEntry he).2.2 hslot
  have hi := getElem?_of_mem_indexed (List.mem_of_mem_filter (List.mem_filter.1 hai).1)
  have hj := getElem?_of_mem_indexed (List.mem_of_mem_filter (List.mem_filter.1 hbj).1)
  rw [haction, ← hj] at hi
  obtain ⟨hlt, -⟩ := List.getElem?_eq_some_iff.1 hj
  exact Prod.ext haction ((List.getElem?_inj hlt hnodup).1 hi.symm).symm

theorem slot_of_otherMoves {actions : List ExecAction} {ctx : List DamageEntry}
    {ai : ExecAction × Nat} (hai : ai ∈ otherMoves actions ctx) :
    ai.1.moveSlot ∉ ctx.map (·.slot) := by
  intro hmem
  obtain ⟨e, he, hslot⟩ := List.mem_map.1 hmem
  have hnone : contextEntry ctx ai.1 = none := by simpa using (List.mem_filter.1 hai).2
  have hne := List.find?_eq_none.1 hnone e he
  exact hne (by simpa using hslot)

/-- A drawn configuration gives an action its share of the scores drawn under the same rolls. -/
theorem configShare_drawnConfig {actions : List ExecAction}
    (hshape : ∀ a ∈ actions, LegalShape a) (hnodup : actions.Nodup) (hp : Int) (exc : Bool)
    {i : Nat} {a : ExecAction} (ha : actions[i]? = some a) {raws : List Int}
    (hraws : raws.length = (buildDamageContext moves state aiIdx actions).length) :
    let ctx := buildDamageContext moves state aiIdx actions
    configShare moves state aiIdx (damagingMoves actions ctx) (otherMoves actions ctx) exc i
      (drawnConfig hp raws).isHighest (drawnConfig hp raws).kills =
      avg (drawAll (keyed (slotDist moves state aiIdx
        (highestSlots (ctx.map (·.slot)) raws hp) exc)) (actions.filter isMoveAction))
        (leaderShare a) := by
  intro ctx
  have hslots := slots_of_context moves state aiIdx hshape
  have hlength : raws.length = (damagingMoves actions ctx).length := by
    rw [hraws, ← List.length_map (f := (·.slot)), hslots, List.length_map]
  have hdamaging := map_slotDist_damaging moves state aiIdx hp exc
    (nodup_damagingSlots moves state aiIdx hshape hnodup) hlength
    fun ai hai => damageEntry_of_damaging moves state aiIdx hshape hai
  have hothers := map_slotDist_others moves state aiIdx hp exc
    (show raws.length = (ctx.map (·.slot)).length by rw [hraws, List.length_map])
    fun ai (hai : ai ∈ otherMoves actions ctx) => slot_of_otherMoves hai
  have hperm : (damagingMoves actions ctx ++ otherMoves actions ctx).Perm (indexedMoves actions) :=
    List.filter_append_perm _ _
  rw [← hslots] at hdamaging
  have hdists : damagingDists moves state aiIdx (damagingMoves actions ctx)
        ⟨1, (drawnConfig hp raws).isHighest, (drawnConfig hp raws).kills⟩ ++
      otherDists moves state aiIdx (otherMoves actions ctx)
        (exc || (drawnConfig hp raws).kills.any id) =
      (damagingMoves actions ctx ++ otherMoves actions ctx).map fun ai =>
        slotDist moves state aiIdx (highestSlots (ctx.map (·.slot)) raws hp) exc ai.1 := by
    rw [List.map_append]
    exact congrArg₂ _ hdamaging.symm hothers.symm
  rw [configShare, hdists, avg_drawAll_map, ← List.map_append, filter_isMoveAction]
  have hindexed : indexedMoves actions ⊆ indexed actions := fun ai hai => List.mem_of_mem_filter hai
  have hboth : damagingMoves actions ctx ++ otherMoves actions ctx ⊆ indexed actions :=
    fun ai hai => hindexed (hperm.mem_iff.1 hai)
  refine (avg_share_index hboth _ ha).trans ?_
  rw [avg_drawAll_perm hperm _ fun bs bs' h => leaderShare_perm _ h]
  exact (avg_share_action hnodup hindexed _ ha).symm

theorem getElem?_moveProbs {actions : List ExecAction} (hshape : ∀ a ∈ actions, LegalShape a)
    (hnodup : actions.Nodup) (hp : Int) (exc : Bool) (i : Nat) :
    (moveProbs moves state aiIdx actions (buildDamageContext moves state aiIdx actions) hp exc)[i]? =
      actions[i]?.map fun a => avg (scoreLaw moves state aiIdx actions hp exc) (leaderShare a) := by
  rw [getElem?_moveProbs_config]
  cases ha : actions[i]? with
  | none => rfl
  | some a =>
    refine congrArg some ?_
    rw [rolls_of_context moves state aiIdx hshape, avg_drawAll_map, scoreLaw]
    beta_reduce
    rw [avg_andThen]
    apply avg_congr
    intro rw hrw
    apply configShare_drawnConfig moves state aiIdx hshape hnodup hp exc ha
    exact length_of_mem_outcomes (List.mem_map_of_mem hrw)

theorem positive_sampleRolls (ctx : List DamageEntry) : Positive (sampleRolls ctx) := by
  apply positive_drawAll
  intro e _ rw hrw
  obtain ⟨iw, hiw, rfl⟩ := List.mem_map.1 hrw
  obtain ⟨i, -, rfl⟩ := List.mem_map.1 hiw
  simp

theorem mass_sampleRolls (ctx : List DamageEntry) : mass (sampleRolls ctx) = 1 := by
  apply mass_drawAll
  intro e _
  norm_num [mass, uniform, Function.comp_def]

theorem positive_scoreLaw (actions : List ExecAction) (hp : Int) (exc : Bool) :
    Positive (scoreLaw moves state aiIdx actions hp exc) := by
  rw [scoreLaw]
  apply (positive_sampleRolls _).andThen
  intro raws _
  apply positive_drawAll
  intro a _
  exact (isLottery_slotDist moves state aiIdx _ exc a).positive.keyed

theorem mass_scoreLaw (actions : List ExecAction) (hp : Int) (exc : Bool) :
    mass (scoreLaw moves state aiIdx actions hp exc) = 1 := by
  rw [scoreLaw, mass_andThen, mass_sampleRolls]
  intro rw _
  apply mass_drawAll
  intro a _
  rw [mass_keyed, (isLottery_slotDist moves state aiIdx _ exc a).mass_eq]

theorem keys_of_scoreLaw {actions : List ExecAction} {hp : Int} {exc : Bool}
    {ps : List (ExecAction × Int)}
    (h : ps ∈ outcomes (scoreLaw moves state aiIdx actions hp exc)) :
    ps.map (·.1) = actions.filter isMoveAction := by
  rw [scoreLaw] at h
  obtain ⟨raws, -, hps⟩ := mem_outcomes_andThen.1 h
  exact keys_of_mem_outcomes hps

theorem mem_of_scoreLaw {actions : List ExecAction} {hp : Int} {exc : Bool}
    {ps : List (ExecAction × Int)}
    (h : ps ∈ outcomes (scoreLaw moves state aiIdx actions hp exc)) {as : ExecAction × Int}
    (has : as ∈ ps) : as.1 ∈ actions ∧ isMoveAction as.1 = true := by
  have hmem := List.mem_map_of_mem (f := Prod.fst) has
  rw [show ps.map Prod.fst = _ from keys_of_scoreLaw moves state aiIdx h] at hmem
  exact List.mem_filter.1 hmem

theorem ne_nil_of_scoreLaw {actions : List ExecAction} (hmove : ∃ a ∈ actions, isMoveAction a = true)
    {hp : Int} {exc : Bool} {ps : List (ExecAction × Int)}
    (h : ps ∈ outcomes (scoreLaw moves state aiIdx actions hp exc)) : ps ≠ [] := by
  rintro rfl
  obtain ⟨a, ha, hmove⟩ := hmove
  have hnil := keys_of_scoreLaw moves state aiIdx h
  exact List.ne_nil_of_mem (List.mem_filter.2 ⟨ha, hmove⟩) hnil.symm

end Law

end Engine

end NuzlockeSolver
