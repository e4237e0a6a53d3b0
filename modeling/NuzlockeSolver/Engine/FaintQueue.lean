import Mathlib.Algebra.Order.BigOperators.Group.Finset
import NuzlockeSolver.Fuel
import NuzlockeSolver.Engine.Switch

/-!
# Draining the faint queue

After a turn, and before the first, fainted mons in battle are replaced from the bench. A
replacement may be hurt or faint as it enters, drop below half and pivot out again, or make others
faint; the queue is rebuilt until it stays empty.
-/

namespace NuzlockeSolver

namespace Engine

section Model

def eeAbilityEe : Int32 := 194

def eeAbilityWo : Int32 := 193

def onBench (side : SideState) (i : Nat) : Bool :=
  !side.activeIndices.toList.any (fun ai => ai.toInt == i) &&
    !(side.team.toList.getD i default).fainted

def benchAvailable (side : SideState) : Bool :=
  (List.range side.team.toList.length).any (onBench side)

def faintedSlots (state : BattleState) (si : Int) : List (Int × Nat) :=
  let side := state.side si
  if benchAvailable side then
    ((List.range side.activeIndices.toList.length).filter fun slotPos =>
      (side.mon (activeIdx state si slotPos)).fainted).map fun slotPos => (si, slotPos)
  else []

def cppBuildFaintQueue (state : BattleState) : List (Int × Nat) :=
  faintedSlots state 0 ++ faintedSlots state 1

def faintRound (seen : List Int) : List (Int × Nat) → List (Int × Nat)
  | [] => []
  | (si, slotPos) :: queue =>
    if si ∈ seen then faintRound seen queue
    else (si, slotPos) :: faintRound (si :: seen) queue

def currentFaintRound (queue : List (Int × Nat)) : List (Int × Nat) := faintRound [] queue

def benchSwitchActions (state : BattleState) (si : Int) (slotPos : Nat) : List ExecAction :=
  let side := state.side si
  let active := activeIdx state si slotPos
  ((List.range side.team.toList.length).filter fun (i : Nat) =>
    (i : Int) != active.toInt && !(side.team.toList.getD i default).fainted &&
      !side.activeIndices.toList.any fun ai => ai.toInt == (i : Int) && ai != active).map
    fun (i : Nat) => makeSwitchAction i

inductive SwitchCtx
  | postFaint
  | forcedPivot

/-- Who answers for the replacements: a policy for each side, and the oracle of a paused game for
its forced switches. `Ω` is what they remember. -/
structure Pilots (Ω : Type) where
  selectSwitch : Ω → Int → List ExecAction → BattleState → SwitchCtx → ExecAction × Ω
  oracleResolve : Option (Ω → List Int → Int × Ω)
  forced : Bool

structure FaintLogEntry where
  phase : String
  p0 : Option Int32
  p1 : Option Int32
deriving DecidableEq

structure Replacement where
  before : BattleState
  side : Int
  slot : Nat
  teamIdx : Int32

structure Drain (Ω : Type) where
  pilot : Ω
  state : BattleState
  actionLog : List FaintLogEntry
  sent : List Replacement

variable {Ω : Type} (E : EntryRules) (P : Pilots Ω)

def Drain.send (d : Drain Ω) (si : Int) (slot : Nat) (teamIdx : Int32) : Drain Ω :=
  { d with
    state := cppApplySwitch E d.state si teamIdx slot
    sent := d.sent ++ [⟨d.state, si, slot, teamIdx⟩] }

def Drain.log (d : Drain Ω) (entry : FaintLogEntry) : Drain Ω :=
  { d with actionLog := d.actionLog ++ [entry] }

def choosePivot (w : Ω) (si : Int) (candidates : List ExecAction) (state : BattleState) :
    Int × Ω :=
  let selected := P.selectSwitch w si candidates state .forcedPivot
  match P.oracleResolve with
  | none => (selected.1.switchToSlot, selected.2)
  | some resolve =>
    if P.forced then (selected.1.switchToSlot, selected.2)
    else resolve w ((candidates.map ExecAction.switchToSlot).mergeSort)

def forcedSwitchEntry (si : Int) (teamIdx : Int32) : FaintLogEntry :=
  ⟨"forced_switch", if si = 0 then some teamIdx else none, if si = 1 then some teamIdx else none⟩

/-- The front mon leaves when it came in above half its HP and is at half or below. Gives the HP
of its replacement before the entry. -/
def cppEntryEeStep (si : Int) (hpBeforeHazards : Int32) (d : Drain Ω) : Option (Drain Ω × Int32) :=
  let side := d.state.side si
  let mon := activeMon d.state si
  let half := Int.tdiv mon.maxHp.toInt 2
  if mon.ability != eeAbilityEe && mon.ability != eeAbilityWo then none
  else if mon.fainted || mon.hp ≤ 0 then none
  else if ¬ (half < hpBeforeHazards.toInt ∧ mon.hp.toInt ≤ half) then none
  else if !benchAvailable side then none
  else
    let candidates := benchSwitchActions d.state si 0
    if candidates.isEmpty then none
    else
      let chosen := choosePivot P d.pilot si candidates d.state
      let teamIdx := Int32.ofInt chosen.1
      let next := { d with pilot := chosen.2 }.send E si 0 teamIdx
      some (next.log (forcedSwitchEntry si teamIdx), (side.mon teamIdx).hp)

def entryEeLoop (si : Int) : Drain Ω × Int32 → Fueled (Drain Ω × Int32) :=
  Fueled.loop fun x => .ret (cppEntryEeStep E P si x.2 x.1)

def drainPair (si : Int) (slotPos : Nat) (d : Drain Ω) : Fueled (Option Int32 × Drain Ω) :=
  let candidates := benchSwitchActions d.state si slotPos
  if candidates.isEmpty then .ret (none, d)
  else
    let chosen := P.selectSwitch d.pilot si candidates d.state .postFaint
    let teamIdx := Int32.ofInt chosen.1.switchToSlot
    let hpBefore := ((d.state.side si).mon teamIdx).hp
    (entryEeLoop E P si ({ d with pilot := chosen.2 }.send E si slotPos teamIdx, hpBefore)).bind
      fun x => .ret (some (activeIdx x.1.state si slotPos), x.1)

def drainRound : List (Int × Nat) → Option Int32 × Option Int32 → Drain Ω →
    Fueled ((Option Int32 × Option Int32) × Drain Ω)
  | [], choices, d => .ret (choices, d)
  | (si, slotPos) :: round, choices, d =>
    (drainPair E P si slotPos d).bind fun x =>
      drainRound round (if si = 0 then (x.1, choices.2) else (choices.1, x.1)) x.2

def drainStep (x : List (Int × Nat) × Drain Ω) : Fueled (Option (List (Int × Nat) × Drain Ω)) :=
  let round := currentFaintRound x.1
  if x.1.isEmpty then .ret none
  else
    (drainRound E P round (none, none) x.2).bind fun y =>
      let d := y.2.log ⟨"post_faint", y.1.1, y.1.2⟩
      let queue := round.foldl List.erase x.1
      .ret (some (if queue.isEmpty then cppBuildFaintQueue d.state else queue, d))

def cppDrainFaintQueue (d : Drain Ω) (faintQueue : List (Int × Nat)) :
    Fueled (List (Int × Nat) × Drain Ω) :=
  Fueled.loop (drainStep E P) (faintQueue, d)

end Model

section Candidates

theorem toInt_ofInt_teamIdx {side : SideState} {i : Nat} (h : i < side.team.toList.length) :
    (Int32.ofInt i).toInt = i := by
  have hcap := side.team.size_le
  apply Int32.toInt_ofInt_of_le
  · simp
  · simp only [sideTeamCap] at hcap
    simp
    omega

theorem mon_ofInt {side : SideState} {i : Nat} (h : i < side.team.toList.length) :
    side.mon (Int32.ofInt i) = side.team.toList.getD i default := by
  rw [SideState.mon, toInt_ofInt_teamIdx h, Int.toNat_natCast]

/-- A member of the team that is alive and not in battle. -/
structure Replacement.Sound (r : Replacement) : Prop where
  inTeam : r.teamIdx.toInt.toNat < (r.before.side r.side).team.toList.length
  living : ((r.before.side r.side).mon r.teamIdx).fainted = false
  benched : r.teamIdx ∉ (r.before.side r.side).activeIndices.toList

variable {state : BattleState} {si : Int} {slotPos : Nat}

theorem sound_of_mem {a : ExecAction} (h : a ∈ benchSwitchActions state si slotPos) (slot : Nat) :
    (⟨state, si, slot, Int32.ofInt a.switchToSlot⟩ : Replacement).Sound := by
  obtain ⟨i, hi, rfl⟩ := List.mem_map.1 h
  obtain ⟨hrange, hi⟩ := List.mem_filter.1 hi
  have hlt := List.mem_range.1 hrange
  simp only [Bool.and_eq_true, bne_iff_ne, Bool.not_eq_true', List.any_eq_false] at hi
  obtain ⟨⟨hactive, hliving⟩, hother⟩ := hi
  refine ⟨?_, ?_, fun hmem => ?_⟩
  · change (Int32.ofInt (i : Int)).toInt.toNat < _
    rw [toInt_ofInt_teamIdx hlt, Int.toNat_natCast]
    exact hlt
  · change ((state.side si).mon (Int32.ofInt (i : Int))).fainted = false
    rw [mon_ofInt hlt]
    exact hliving
  · have hidx := toInt_ofInt_teamIdx hlt
    have h := hother (Int32.ofInt (i : Int)) hmem
    rw [hidx, beq_self_eq_true] at h
    simp only [true_and, ne_eq, Decidable.not_not] at h
    exact hactive (by rw [← h, hidx])

theorem activeIdx_mem (hslot : slotPos < (state.side si).activeIndices.toList.length) :
    activeIdx state si slotPos ∈ (state.side si).activeIndices.toList := by
  rw [activeIdx, List.getD_eq_getElem _ _ hslot]
  exact List.getElem_mem hslot

theorem benchSwitchActions_ne_nil (hbench : benchAvailable (state.side si) = true)
    (hslot : slotPos < (state.side si).activeIndices.toList.length) :
    benchSwitchActions state si slotPos ≠ [] := by
  obtain ⟨i, hrange, hbench⟩ := List.any_eq_true.1 hbench
  simp only [onBench, Bool.and_eq_true, Bool.not_eq_true', List.any_eq_false, beq_iff_eq] at hbench
  refine List.ne_nil_of_mem (List.mem_map.2 ⟨i, List.mem_filter.2 ⟨hrange, ?_⟩, rfl⟩)
  simp only [Bool.and_eq_true, bne_iff_ne, Bool.not_eq_true', List.any_eq_false, beq_iff_eq]
  exact ⟨⟨fun heq => hbench.1 _ (activeIdx_mem hslot) heq.symm, hbench.2⟩,
    fun ai hai h => hbench.1 ai hai h.1⟩

end Candidates

section Rank

def weight (m : PokemonState) : Nat := if m.fainted then 0 else m.hp.toInt.toNat + 1

def totalWeight (s : BattleState) : Nat :=
  ∑ p ∈ Finset.range 2 ×ˢ Finset.range sideTeamCap, weight ((s.side p.1).mon (Int32.ofInt p.2))

def faintedCount (s : BattleState) (si : Int) : Nat :=
  (s.side si).activeIndices.toList.countP fun idx => ((s.side si).mon idx).fainted

def rank (s : BattleState) : Nat := 5 * totalWeight s + (faintedCount s 0 + faintedCount s 1)

theorem Wears.weight_le {m m' : PokemonState} (h : Wears m m') : weight m' ≤ weight m := by
  unfold weight
  split
  · exact Nat.zero_le _
  · rename_i hfainted
    have hw := h (by simpa using hfainted)
    rw [hw.1]
    simp only [Bool.false_eq_true, if_false]
    have hle := hw.2
    omega

theorem fainted_of_weight_eq {m m' : PokemonState} (h : weight m' = weight m) :
    m'.fainted = m.fainted := by
  unfold weight at h
  cases hm : m.fainted <;> cases hm' : m'.fainted <;> simp_all

variable {s t : BattleState}

theorem totalWeight_le (h : s.MonsRelated Wears t) : totalWeight t ≤ totalWeight s :=
  Finset.sum_le_sum fun p _ => (h p.1 _).weight_le

theorem mon_toNat (side : SideState) {idx : Int32} (h : idx.toInt.toNat < sideTeamCap) :
    side.mon (Int32.ofInt idx.toInt.toNat) = side.mon idx := by
  have hofInt : (Int32.ofInt idx.toInt.toNat).toInt.toNat = idx.toInt.toNat := by
    simp only [sideTeamCap] at h
    generalize idx.toInt.toNat = n at h
    rw [Int32.toInt_ofInt_of_le (by simp) (by simp; omega), Int.toNat_natCast]
  rw [SideState.mon, SideState.mon, hofInt]

theorem fainted_eq_of_totalWeight (h : s.MonsRelated Wears t)
    (heq : totalWeight t = totalWeight s) (si : Int) (idx : Int32) :
    ((t.side si).mon idx).fainted = ((s.side si).mon idx).fainted := by
  have hle : ∀ p ∈ Finset.range 2 ×ˢ Finset.range sideTeamCap,
      weight ((t.side (p.1 : Nat)).mon (Int32.ofInt (p.2 : Nat))) ≤
        weight ((s.side (p.1 : Nat)).mon (Int32.ofInt (p.2 : Nat))) :=
    fun p _ => (h p.1 _).weight_le
  have hpoint := (Finset.sum_eq_sum_iff_of_le hle).1 heq
  obtain ⟨k, hk, hside⟩ : ∃ k : Nat, k < 2 ∧ (si = 0 ↔ (k : Int) = 0) := by
    by_cases hsi : si = 0
    · exact ⟨0, by decide, by simp [hsi]⟩
    · exact ⟨1, by decide, by simp [hsi]⟩
  rw [side_congr t hside, side_congr s hside]
  by_cases hn : idx.toInt.toNat < sideTeamCap
  · have hweight := hpoint (k, idx.toInt.toNat)
      (Finset.mem_product.2 ⟨Finset.mem_range.2 hk, Finset.mem_range.2 hn⟩)
    rw [mon_toNat _ hn, mon_toNat _ hn] at hweight
    exact fainted_of_weight_eq hweight
  · have hmon : ∀ side : SideState, side.mon idx = default := by
      intro side
      exact List.getD_eq_default _ _ (side.team.size_le.trans (not_lt.1 hn))
    rw [hmon, hmon]

theorem faintedCount_le (s : BattleState) (si : Int) : faintedCount s si ≤ 2 :=
  List.countP_le_length.trans (s.side si).activeIndices.size_le

section Send

variable {si : Int} {slot : Nat} {newSlot : Int32}
  (hactive : ∀ j, (t.side j).activeIndices =
    if (si = 0 ↔ j = 0) then (s.side j).activeIndices.set slot newSlot
    else (s.side j).activeIndices)
  (hslot : slot < (s.side si).activeIndices.toList.length)
  (hnew : ((s.side si).mon newSlot).fainted = false)

include hactive hslot hnew

theorem faintedCount_of_send
    (hfainted : ∀ j idx, ((t.side j).mon idx).fainted = ((s.side j).mon idx).fainted) (j : Int) :
    faintedCount t j + (if (si = 0 ↔ j = 0) ∧
      ((s.side si).mon (activeIdx s si slot)).fainted = true then 1 else 0) =
      faintedCount s j := by
  simp only [faintedCount, hactive j, hfainted]
  by_cases hj : si = 0 ↔ j = 0
  · rw [side_congr s hj] at hslot hnew ⊢
    have hold : activeIdx s si slot = (s.side j).activeIndices.toList[slot] := by
      rw [activeIdx, side_congr s hj, List.getD_eq_getElem _ _ hslot]
    rw [if_pos hj, hold, InlineVec.set, List.countP_set hslot, hnew]
    simp only [hj, true_and, Bool.false_eq_true, if_false, Nat.add_zero]
    by_cases hf : ((s.side j).mon (s.side j).activeIndices.toList[slot]).fainted = true
    · have hpos : 0 < (s.side j).activeIndices.toList.countP
          fun idx => ((s.side j).mon idx).fainted :=
        List.countP_pos_iff.2 ⟨_, List.getElem_mem hslot, hf⟩
      rw [if_pos hf]
      omega
    · rw [if_neg hf]
      omega
  · rw [if_neg hj, if_neg fun h => hj h.1]
    rfl

/-- Sending in a living mon never raises the rank, and lowers it when it replaces a fainted one. -/
theorem rank_of_send (h : s.MonsRelated Wears t) :
    rank t ≤ rank s ∧
      (((s.side si).mon (activeIdx s si slot)).fainted = true → rank t < rank s) := by
  have hle := totalWeight_le h
  have h0 := faintedCount_le t 0
  have h1 := faintedCount_le t 1
  by_cases heq : totalWeight t = totalWeight s
  · have hcount := faintedCount_of_send hactive hslot hnew (fainted_eq_of_totalWeight h heq)
    have hc0 := hcount 0
    have hc1 := hcount 1
    unfold rank
    rw [heq]
    by_cases hold : ((s.side si).mon (activeIdx s si slot)).fainted = true
    · by_cases hsi : si = 0
      · rw [if_pos ⟨iff_of_true hsi rfl, hold⟩] at hc0
        rw [if_neg fun hh => one_ne_zero (hh.1.1 hsi)] at hc1
        omega
      · rw [if_neg fun hh => hsi (hh.1.2 rfl)] at hc0
        rw [if_pos ⟨iff_of_false hsi one_ne_zero, hold⟩] at hc1
        omega
    · rw [if_neg fun hh => hold hh.2] at hc0 hc1
      exact ⟨by omega, fun hfainted => absurd hfainted hold⟩
  · unfold rank
    omega

end Send

theorem totalWeight_add_le (h : s.MonsRelated Wears t) {k : Nat} (hk : k < 2) {idx : Int32}
    (hidx : idx.toInt.toNat < sideTeamCap) :
    totalWeight t + (weight ((s.side k).mon idx) - weight ((t.side k).mon idx)) ≤
      totalWeight s := by
  have hsplit : totalWeight s = totalWeight t +
      ∑ p ∈ Finset.range 2 ×ˢ Finset.range sideTeamCap,
        (weight ((s.side (p.1 : Nat)).mon (Int32.ofInt (p.2 : Nat))) -
          weight ((t.side (p.1 : Nat)).mon (Int32.ofInt (p.2 : Nat)))) := by
    rw [totalWeight, totalWeight, ← Finset.sum_add_distrib]
    refine Finset.sum_congr rfl fun p _ => ?_
    have hle := (h (p.1 : Nat) (Int32.ofInt (p.2 : Nat))).weight_le
    omega
  have hmem : (k, idx.toInt.toNat) ∈ Finset.range 2 ×ˢ Finset.range sideTeamCap :=
    Finset.mem_product.2 ⟨Finset.mem_range.2 hk, Finset.mem_range.2 hidx⟩
  have hsingle := Finset.single_le_sum
    (f := fun p : Nat × Nat => weight ((s.side (p.1 : Nat)).mon (Int32.ofInt (p.2 : Nat))) -
      weight ((t.side (p.1 : Nat)).mon (Int32.ofInt (p.2 : Nat))))
    (fun _ _ => Nat.zero_le _) hmem
  simp only [mon_toNat _ hidx] at hsingle
  omega

end Rank

section Steps

variable {Ω : Type} {E : EntryRules} {P : Pilots Ω} {d d' d'' : Drain Ω}

def Pending (s : BattleState) (p : Int × Nat) : Prop :=
  (p.1 = 0 ∨ p.1 = 1) ∧ p.2 < (s.side p.1).activeIndices.toList.length ∧
    ((s.side p.1).mon (activeIdx s p.1 p.2)).fainted = true

theorem Wears.fainted {m m' : PokemonState} (h : Wears m m') (hm : m.fainted = true) :
    m'.fainted = true := by
  by_contra hne
  rw [(h (by simpa using hne)).1] at hm
  cases hm

theorem pending_of_send {s t : BattleState} (h : s.MonsRelated Wears t) {si : Int} {slot : Nat}
    {newSlot : Int32}
    (hactive : ∀ j, (t.side j).activeIndices =
      if (si = 0 ↔ j = 0) then (s.side j).activeIndices.set slot newSlot
      else (s.side j).activeIndices)
    (hsi : si = 0 ∨ si = 1) {p : Int × Nat} (hp : Pending s p) (hne : p ≠ (si, slot)) :
    Pending t p := by
  obtain ⟨sj, sp⟩ := p
  obtain ⟨hsj, hlt, hfainted⟩ := hp
  have hlength : (t.side sj).activeIndices.toList.length =
      (s.side sj).activeIndices.toList.length := by
    rw [hactive sj]
    split
    · exact List.length_set
    · rfl
  have hidx : activeIdx t sj sp = activeIdx s sj sp := by
    rw [activeIdx, activeIdx, hactive sj]
    split
    · rename_i hside
      have hslot : slot ≠ sp := by
        rintro rfl
        apply hne
        simp only at hsj hside
        rw [Prod.mk.injEq]
        exact ⟨by omega, rfl⟩
      simp only [InlineVec.set, List.getD_eq_getElem?_getD, List.getElem?_set_ne hslot]
    · rfl
  refine ⟨hsj, hlength ▸ hlt, ?_⟩
  simp only [hidx]
  exact (h sj _).fainted hfainted

structure Follows (slots : List (Int × Nat)) (d d' : Drain Ω) : Prop where
  rank_le : rank d'.state ≤ rank d.state
  lengths : ∀ j, (d'.state.side j).activeIndices.toList.length =
    (d.state.side j).activeIndices.toList.length
  pending : ∀ p, Pending d.state p → p ∉ slots → Pending d'.state p
  sound : (∀ r ∈ d.sent, r.Sound) → ∀ r ∈ d'.sent, r.Sound

theorem Follows.refl (slots : List (Int × Nat)) (d : Drain Ω) : Follows slots d d :=
  ⟨le_refl _, fun _ => rfl, fun _ h _ => h, fun h => h⟩

theorem Follows.trans {slots slots' : List (Int × Nat)} (h : Follows slots d d')
    (h' : Follows slots' d' d'') : Follows (slots ++ slots') d d'' where
  rank_le := h'.rank_le.trans h.rank_le
  lengths j := (h'.lengths j).trans (h.lengths j)
  pending p hp hnot := h'.pending p (h.pending p hp fun hm => hnot (List.mem_append_left _ hm))
    fun hm => hnot (List.mem_append_right _ hm)
  sound hd := h'.sound (h.sound hd)

/-- The policies answer with a candidate that they are offered. -/
structure Pilots.Offered (P : Pilots Ω) : Prop where
  select : ∀ w si candidates state ctx, candidates ≠ [] →
    (P.selectSwitch w si candidates state ctx).1 ∈ candidates
  oracle : ∀ resolve ∈ P.oracleResolve, ∀ w options, options ≠ [] → (resolve w options).1 ∈ options

/-- Sending in a candidate: the slot is dealt with, and the rank falls when it was a fainted one. -/
theorem send_follows (hE : E.Wearing) {si : Int} {slot : Nat} {a : ExecAction}
    (ha : a ∈ benchSwitchActions d.state si slot) (hsi : si = 0 ∨ si = 1)
    (hslot : slot < (d.state.side si).activeIndices.toList.length)
    (hleave : ((d.state.side si).mon (activeIdx d.state si slot)).fainted = true ∨
      ((d.state.side si).mon (activeIdx d.state si slot)).ability ≠ abRegenerator) :
    Follows [(si, slot)] d (d.send E si slot (Int32.ofInt a.switchToSlot)) ∧
      (((d.state.side si).mon (activeIdx d.state si slot)).fainted = true →
        rank (d.send E si slot (Int32.ofInt a.switchToSlot)).state < rank d.state) := by
  have hsound := sound_of_mem ha slot
  obtain ⟨hmons, hactive⟩ := cppApplySwitch_spec hE (Int32.ofInt a.switchToSlot) hleave
  obtain ⟨hle, hlt⟩ := rank_of_send hactive hslot hsound.living hmons
  refine ⟨⟨hle, fun j => ?_, fun p hp hnot => ?_, fun hd r hr => ?_⟩, hlt⟩
  · rw [Drain.send, hactive j]
    split
    · exact List.length_set
    · rfl
  · exact pending_of_send hmons hactive hsi hp (by simpa using hnot)
  · rcases List.mem_append.1 hr with hr | hr
    · exact hd r hr
    · rw [List.mem_singleton.1 hr]
      exact hsound

theorem choosePivot_mem (hP : P.Offered) (w : Ω) (si : Int) {candidates : List ExecAction}
    (h : candidates ≠ []) (state : BattleState) :
    ∃ a ∈ candidates, (choosePivot P w si candidates state).1 = a.switchToSlot := by
  have hselect := hP.select w si candidates state .forcedPivot h
  unfold choosePivot
  split
  · exact ⟨_, hselect, rfl⟩
  · rename_i resolve hresolve
    split
    · exact ⟨_, hselect, rfl⟩
    · have hmem := hP.oracle resolve hresolve w ((candidates.map ExecAction.switchToSlot).mergeSort)
        (List.ne_nil_of_length_pos (by
          rw [List.length_mergeSort, List.length_map]
          exact List.length_pos_of_ne_nil h))
      rw [List.mem_mergeSort] at hmem
      obtain ⟨a, ha, heq⟩ := List.mem_map.1 hmem
      exact ⟨a, ha, heq.symm⟩

theorem entryEeStep_cases (hP : P.Offered) {si : Int} {hp hp' : Int32}
    (h : cppEntryEeStep E P si hp d = some (d', hp')) :
    let mon := activeMon d.state si
    mon.ability ≠ abRegenerator ∧ mon.fainted = false ∧ 0 < mon.hp.toInt ∧
      mon.hp.toInt < hp.toInt ∧
      ∃ a ∈ benchSwitchActions d.state si 0,
        hp' = ((d.state.side si).mon (Int32.ofInt a.switchToSlot)).hp ∧
        d'.state = (d.send E si 0 (Int32.ofInt a.switchToSlot)).state ∧
        d'.sent = (d.send E si 0 (Int32.ofInt a.switchToSlot)).sent := by
  intro mon
  unfold cppEntryEeStep at h
  extract_lets side half candidates chosen teamIdx next at h
  split at h
  · cases h
  rename_i hability
  split at h
  · cases h
  rename_i halive
  split at h
  · cases h
  rename_i hcross
  split at h
  · cases h
  split at h
  · cases h
  rename_i hne
  cases h
  obtain ⟨a, ha, hchosen⟩ := choosePivot_mem hP d.pilot si
    (fun hnil => hne (List.isEmpty_iff.2 hnil) : candidates ≠ []) d.state
  have hidx : teamIdx = Int32.ofInt a.switchToSlot := congrArg Int32.ofInt hchosen
  simp only [Bool.or_eq_true, decide_eq_true_eq, not_or, Bool.not_eq_true] at halive
  rw [not_not] at hcross
  refine ⟨fun hreg => hability ?_, halive.1, ?_, by omega, a, ha, ?_, ?_, ?_⟩
  · have hmon : mon.ability = abRegenerator := hreg
    rw [hmon]
    decide
  · have hpos := halive.2
    rw [Int32.le_iff_toInt_le, Int32.toInt_zero] at hpos
    omega
  · rw [← hidx]
  · simp only [next, hidx, Drain.send, Drain.log]
  · simp only [next, hidx, Drain.send, Drain.log]

theorem Follows.congr {slots : List (Int × Nat)} (h : Follows slots d d') {e e' : Drain Ω}
    (hs : e.state = d.state) (hsent : e.sent = d.sent) (hs' : e'.state = d'.state)
    (hsent' : e'.sent = d'.sent) : Follows slots e e' where
  rank_le := by
    rw [hs, hs']
    exact h.rank_le
  lengths j := by
    rw [hs, hs']
    exact h.lengths j
  pending p := by
    rw [hs, hs']
    exact h.pending p
  sound := by
    rw [hsent, hsent']
    exact h.sound

theorem entryEeStep_follows (hE : E.Wearing) (hP : P.Offered) {si : Int} (hsi : si = 0 ∨ si = 1)
    {hp hp' : Int32} (hslot : 0 < (d.state.side si).activeIndices.toList.length)
    (h : cppEntryEeStep E P si hp d = some (d', hp')) : Follows [] d d' := by
  obtain ⟨hability, hliving, -, -, a, ha, -, hstate, hsent⟩ := entryEeStep_cases hP h
  obtain ⟨hfollows, -⟩ := send_follows hE ha hsi hslot (.inr hability)
  have hfollows := hfollows.congr (e := d) rfl rfl hstate hsent
  refine ⟨hfollows.rank_le, hfollows.lengths, fun p hp _ => hfollows.pending p hp ?_,
    hfollows.sound⟩
  rintro hmem
  rw [List.mem_singleton.1 hmem] at hp
  exact Bool.false_ne_true (hliving.symm.trans hp.2.2)

def pivotMeasure (s : BattleState) (si : Int) (hpBefore : Int32) : Nat :=
  totalWeight s +
    (if (activeMon s si).fainted = false ∧ 0 < (activeMon s si).hp.toInt then
      (hpBefore.toInt - (activeMon s si).hp.toInt).toNat else 0)

theorem pivotMeasure_lt (hE : E.Wearing) (hP : P.Offered) {si : Int} (hsi : si = 0 ∨ si = 1)
    {hp hp' : Int32} (hslot : 0 < (d.state.side si).activeIndices.toList.length)
    (h : cppEntryEeStep E P si hp d = some (d', hp')) :
    pivotMeasure d'.state si hp' < pivotMeasure d.state si hp := by
  obtain ⟨hability, hliving, hpos, hcross, a, ha, hhp, hstate, -⟩ := entryEeStep_cases hP h
  have hsound := sound_of_mem ha 0
  obtain ⟨hmons, hactive⟩ := cppApplySwitch_spec hE (Int32.ofInt a.switchToSlot) (.inr hability)
  have hnext : d'.state = cppApplySwitch E d.state si (Int32.ofInt a.switchToSlot) 0 := hstate
  rw [← hnext] at hmons hactive
  have hfront : activeIdx d'.state si 0 = Int32.ofInt a.switchToSlot := by
    rw [activeIdx, hactive si, if_pos Iff.rfl, InlineVec.set, List.getD_eq_getElem?_getD,
      List.getElem?_set_self hslot]
    rfl
  obtain ⟨k, hk, rfl⟩ : ∃ k : Nat, k < 2 ∧ si = k := by
    rcases hsi with rfl | rfl
    · exact ⟨0, by decide, rfl⟩
    · exact ⟨1, by decide, rfl⟩
  have htotal := totalWeight_add_le hmons hk
    (hsound.inTeam.trans_le (d.state.side k).team.size_le)
  have hwear := hmons k (Int32.ofInt a.switchToSlot)
  have hold : pivotMeasure d.state k hp = totalWeight d.state +
      (hp.toInt - (activeMon d.state k).hp.toInt).toNat := by
    rw [pivotMeasure, if_pos ⟨hliving, hpos⟩]
  rw [hold, pivotMeasure, activeMon, hfront]
  split
  · rename_i halive
    obtain ⟨hliving', hle⟩ := hwear halive.1
    have hpos' := halive.2
    simp only [weight, hliving', halive.1, Bool.false_eq_true, if_false] at htotal
    rw [hhp]
    omega
  · omega

theorem entryEeLoop_ends (hE : E.Wearing) (hP : P.Offered) {si : Int} (hsi : si = 0 ∨ si = 1)
    (hslot : 0 < (d.state.side si).activeIndices.toList.length) (hp : Int32) :
    ∃ x, (entryEeLoop E P si (d, hp)).Ends x ∧ Follows [] d x.1 := by
  have hbody : ∀ x : Drain Ω × Int32, Follows [] d x.1 →
      (Fueled.ret (cppEntryEeStep E P si x.2 x.1)).Ends none ∨
        ∃ x', (Fueled.ret (cppEntryEeStep E P si x.2 x.1)).Ends (some x') ∧ Follows [] d x'.1 ∧
          pivotMeasure x'.1.state si x'.2 < pivotMeasure x.1.state si x.2 := by
    intro x hx
    have hslot' : 0 < (x.1.state.side si).activeIndices.toList.length := by
      rw [hx.lengths]
      exact hslot
    cases hstep : cppEntryEeStep E P si x.2 x.1 with
    | none => exact .inl (Fueled.ends_ret _)
    | some x' =>
      exact .inr ⟨x', Fueled.ends_ret _, hx.trans (entryEeStep_follows hE hP hsi hslot' hstep),
        pivotMeasure_lt hE hP hsi hslot' hstep⟩
  obtain ⟨x, hends, hfollows, -⟩ := Fueled.loop_ends (fun x => Follows [] d x.1)
    (fun x => pivotMeasure x.1.state si x.2) hbody (s := (d, hp)) (.refl [] d)
  exact ⟨x, hends, hfollows⟩

theorem drainPair_ends (hE : E.Wearing) (hP : P.Offered) {p : Int × Nat}
    (hp : Pending d.state p) :
    ∃ x, (drainPair E P p.1 p.2 d).Ends x ∧ Follows [p] d x.2 ∧
      ((benchSwitchActions d.state p.1 p.2 = [] ∧ x.2 = d) ∨ rank x.2.state < rank d.state) := by
  obtain ⟨hsi, hslot, hfainted⟩ := hp
  unfold drainPair
  extract_lets candidates chosen teamIdx hpBefore
  by_cases hnil : candidates = []
  · rw [if_pos (List.isEmpty_iff.2 hnil)]
    exact ⟨_, Fueled.ends_ret _, .refl [p] d, .inl ⟨hnil, rfl⟩⟩
  rw [if_neg (by simpa using hnil)]
  have hchosen := hP.select d.pilot p.1 candidates d.state .postFaint hnil
  obtain ⟨hfollows, hrank⟩ := send_follows (d := { d with pilot := chosen.2 }) hE hchosen hsi
    hslot (.inl hfainted)
  have hslot' : 0 < (({ d with pilot := chosen.2 }.send E p.1 p.2 teamIdx).state.side
      p.1).activeIndices.toList.length := by
    rw [hfollows.lengths]
    exact Nat.zero_lt_of_lt hslot
  obtain ⟨x, hends, hloop⟩ := entryEeLoop_ends hE hP hsi hslot' hpBefore
  refine ⟨_, hends.bind (Fueled.ends_ret _), ?_, .inr ?_⟩
  · have hsent := hfollows.congr (e := d) rfl rfl rfl rfl
    simpa using hsent.trans hloop
  · exact hloop.rank_le.trans_lt (hrank hfainted)

theorem drainRound_ends (hE : E.Wearing) (hP : P.Offered) {round : List (Int × Nat)}
    (hnodup : round.Nodup) (hround : ∀ p ∈ round, Pending d.state p)
    (choices : Option Int32 × Option Int32) :
    ∃ y, (drainRound E P round choices d).Ends y ∧ Follows round d y.2 ∧
      ((y.2 = d ∧ ∀ p ∈ round, benchSwitchActions d.state p.1 p.2 = []) ∨
        rank y.2.state < rank d.state) := by
  induction round generalizing d choices with
  | nil => exact ⟨_, Fueled.ends_ret _, .refl [] d, .inl ⟨rfl, fun p hp => by cases hp⟩⟩
  | cons p round ih =>
    obtain ⟨hnot, hnodup⟩ := List.nodup_cons.1 hnodup
    obtain ⟨x, hx, hfollows, hpair⟩ := drainPair_ends hE hP (hround p List.mem_cons_self)
    have hrest : ∀ q ∈ round, Pending x.2.state q := fun q hq =>
      hfollows.pending q (hround q (List.mem_cons_of_mem _ hq)) fun hm =>
        hnot (List.mem_singleton.1 hm ▸ hq)
    obtain ⟨y, hy, hfollows', htail⟩ := ih hnodup hrest
      (if p.1 = 0 then (x.1, choices.2) else (choices.1, x.1))
    refine ⟨y, hx.bind hy, hfollows.trans hfollows', ?_⟩
    rcases hpair with ⟨hnil, hsame⟩ | hlt
    · rw [hsame] at htail
      refine htail.imp (fun hall => ⟨hall.1, fun q hq => ?_⟩) id
      rcases List.mem_cons.1 hq with rfl | hq
      · exact hnil
      · exact hall.2 q hq
    · exact .inr (hfollows'.rank_le.trans_lt hlt)

end Steps

section Queue

theorem faintRound_sublist (seen : List Int) (queue : List (Int × Nat)) :
    (faintRound seen queue).Sublist queue := by
  induction queue generalizing seen with
  | nil => exact List.Sublist.refl _
  | cons p queue ih =>
    rw [faintRound]
    split
    · exact (ih seen).cons p
    · exact (ih _).cons_cons p

theorem head_mem_round (p : Int × Nat) (queue : List (Int × Nat)) :
    p ∈ currentFaintRound (p :: queue) := by
  rw [currentFaintRound, faintRound, if_neg List.not_mem_nil]
  exact List.mem_cons_self

variable {s : BattleState}

theorem mem_faintedSlots {si : Int} {p : Int × Nat} (h : p ∈ faintedSlots s si) :
    p.1 = si ∧ p.2 < (s.side si).activeIndices.toList.length ∧
      ((s.side si).mon (activeIdx s si p.2)).fainted = true ∧
      benchAvailable (s.side si) = true := by
  unfold faintedSlots at h
  extract_lets side at h
  split at h
  · rename_i hbench
    obtain ⟨slot, hslot, rfl⟩ := List.mem_map.1 h
    obtain ⟨hrange, hfainted⟩ := List.mem_filter.1 hslot
    exact ⟨rfl, List.mem_range.1 hrange, hfainted, hbench⟩
  · cases h

theorem nodup_faintedSlots (s : BattleState) (si : Int) : (faintedSlots s si).Nodup := by
  unfold faintedSlots
  extract_lets side
  split
  · exact (List.nodup_range.filter _).map fun i j h => congrArg Prod.snd h
  · exact List.nodup_nil

theorem length_faintedSlots (s : BattleState) (si : Int) : (faintedSlots s si).length ≤ 2 := by
  unfold faintedSlots
  extract_lets side
  split
  · rw [List.length_map]
    refine (List.length_filter_le _ _).trans ?_
    rw [List.length_range]
    exact side.activeIndices.size_le
  · exact Nat.zero_le _

theorem nodup_cppBuildFaintQueue (s : BattleState) : (cppBuildFaintQueue s).Nodup := by
  refine List.nodup_append.2 ⟨nodup_faintedSlots s 0, nodup_faintedSlots s 1, ?_⟩
  rintro p hp q hq rfl
  have h0 := (mem_faintedSlots hp).1
  have h1 := (mem_faintedSlots hq).1
  omega

theorem length_cppBuildFaintQueue (s : BattleState) : (cppBuildFaintQueue s).length ≤ 4 := by
  have h0 := length_faintedSlots s 0
  have h1 := length_faintedSlots s 1
  rw [cppBuildFaintQueue, List.length_append]
  omega

theorem pending_of_build {p : Int × Nat} (h : p ∈ cppBuildFaintQueue s) :
    Pending s p ∧ benchSwitchActions s p.1 p.2 ≠ [] := by
  have hslots : (p.1 = 0 ∨ p.1 = 1) ∧ p ∈ faintedSlots s p.1 := by
    rcases List.mem_append.1 h with h | h
    · have hp := (mem_faintedSlots h).1
      exact ⟨.inl hp, hp.symm ▸ h⟩
    · have hp := (mem_faintedSlots h).1
      exact ⟨.inr hp, hp.symm ▸ h⟩
  obtain ⟨-, hslot, hfainted, hbench⟩ := mem_faintedSlots hslots.2
  exact ⟨⟨hslots.1, hslot, hfainted⟩, benchSwitchActions_ne_nil hbench hslot⟩

/-- A side with a fainted mon in battle has everyone else fainted or in battle. -/
def Filled (s : BattleState) : Prop :=
  ∀ si, si = 0 ∨ si = 1 →
    (∃ idx ∈ (s.side si).activeIndices.toList, ((s.side si).mon idx).fainted = true) →
    ∀ i < (s.side si).team.toList.length, ((s.side si).team.toList.getD i default).fainted = true ∨
      ∃ ai ∈ (s.side si).activeIndices.toList, ai.toInt = i

theorem filled_of_build (h : cppBuildFaintQueue s = []) : Filled s := by
  intro si hsi hfainted i hi
  obtain ⟨idx, hidx, hfainted⟩ := hfainted
  obtain ⟨slot, hslot, hget⟩ := List.getElem_of_mem hidx
  have hempty : faintedSlots s si = [] := by
    obtain ⟨h0, h1⟩ := List.append_eq_nil_iff.1 h
    rcases hsi with rfl | rfl
    · exact h0
    · exact h1
  by_contra hnot
  rw [not_or] at hnot
  have hbench : benchAvailable (s.side si) = true := by
    refine List.any_eq_true.2 ⟨i, List.mem_range.2 hi, ?_⟩
    simp only [onBench, Bool.and_eq_true, Bool.not_eq_true', List.any_eq_false, beq_iff_eq]
    exact ⟨fun ai hai heq => hnot.2 ⟨ai, hai, heq⟩, by simpa using hnot.1⟩
  have hmem : (si, slot) ∈ faintedSlots s si := by
    rw [faintedSlots, if_pos hbench]
    refine List.mem_map.2 ⟨slot, List.mem_filter.2 ⟨List.mem_range.2 hslot, ?_⟩, rfl⟩
    rw [activeIdx, List.getD_eq_getElem _ _ hslot, hget]
    exact hfainted
  rw [hempty] at hmem
  cases hmem

end Queue

section Run

variable {Ω : Type} {E : EntryRules} {P : Pilots Ω}

def queueCost (s : BattleState) : List (Int × Nat) → Nat
  | [] => 0
  | p :: queue => queue.length + 1 + if benchSwitchActions s p.1 p.2 = [] then 5 else 0

theorem queueCost_le (s : BattleState) (queue : List (Int × Nat)) :
    queueCost s queue ≤ queue.length + 5 := by
  cases queue with
  | nil => exact Nat.zero_le _
  | cons p queue =>
    simp only [queueCost, List.length_cons]
    split
    · omega
    · omega

structure Waiting (x : List (Int × Nat) × Drain Ω) : Prop where
  nodup : x.1.Nodup
  short : x.1.length ≤ 4
  pending : ∀ p ∈ x.1, Pending x.2.state p
  sound : ∀ r ∈ x.2.sent, r.Sound
  rebuilt : x.1 = [] → cppBuildFaintQueue x.2.state = []

theorem waiting_of_build {d : Drain Ω} (h : ∀ r ∈ d.sent, r.Sound) :
    Waiting (cppBuildFaintQueue d.state, d) where
  nodup := nodup_cppBuildFaintQueue d.state
  short := length_cppBuildFaintQueue d.state
  pending _ hp := (pending_of_build hp).1
  sound := h
  rebuilt := id

theorem queueCost_build (s : BattleState) :
    queueCost s (cppBuildFaintQueue s) = (cppBuildFaintQueue s).length := by
  cases hq : cppBuildFaintQueue s with
  | nil => rfl
  | cons p queue =>
    have hp : p ∈ cppBuildFaintQueue s := hq ▸ List.mem_cons_self
    rw [queueCost, if_neg (pending_of_build hp).2, List.length_cons]

theorem mem_afterRound {queue : List (Int × Nat)} (hnodup : queue.Nodup) {p : Int × Nat} :
    p ∈ (currentFaintRound queue).foldl List.erase queue ↔
      p ∈ queue ∧ p ∉ currentFaintRound queue := by
  rw [← List.diff_eq_foldl, hnodup.mem_sdiff_iff]

theorem afterRound_sublist (queue : List (Int × Nat)) :
    ((currentFaintRound queue).foldl List.erase queue).Sublist queue := by
  rw [← List.diff_eq_foldl]
  exact List.diff_sublist _ _

theorem length_afterRound_lt {p : Int × Nat} {queue : List (Int × Nat)}
    (hnodup : (p :: queue).Nodup) :
    ((currentFaintRound (p :: queue)).foldl List.erase (p :: queue)).length <
      (p :: queue).length := by
  have hsub := afterRound_sublist (p :: queue)
  refine lt_of_le_of_ne hsub.length_le fun heq => ?_
  have hmem : p ∈ (currentFaintRound (p :: queue)).foldl List.erase (p :: queue) := by
    rw [hsub.eq_of_length heq]
    exact List.mem_cons_self
  exact ((mem_afterRound hnodup).1 hmem).2 (head_mem_round p queue)

theorem drainStep_ends (hE : E.Wearing) (hP : P.Offered) {x : List (Int × Nat) × Drain Ω}
    (hx : Waiting x) (hne : x.1 ≠ []) :
    ∃ x', (drainStep E P x).Ends (some x') ∧ Waiting x' ∧
      10 * rank x'.2.state + queueCost x'.2.state x'.1 <
        10 * rank x.2.state + queueCost x.2.state x.1 := by
  obtain ⟨queue, d⟩ := x
  obtain ⟨p, queue, rfl⟩ := List.exists_cons_of_ne_nil hne
  have hsub := faintRound_sublist [] (p :: queue)
  obtain ⟨y, hy, hfollows, hround⟩ := drainRound_ends hE hP (hx.nodup.sublist hsub)
    (fun q hq => hx.pending q (hsub.subset hq)) (none, none)
  have hlength := length_afterRound_lt hx.nodup
  have hshort := hx.short
  have hpending : ∀ q ∈ (currentFaintRound (p :: queue)).foldl List.erase (p :: queue),
      Pending y.2.state q := fun q hq =>
    hfollows.pending q (hx.pending q ((mem_afterRound hx.nodup).1 hq).1)
      ((mem_afterRound hx.nodup).1 hq).2
  have hstep : (drainStep E P (p :: queue, d)).Ends (some
      (if ((currentFaintRound (p :: queue)).foldl List.erase (p :: queue)).isEmpty then
        cppBuildFaintQueue y.2.state
      else (currentFaintRound (p :: queue)).foldl List.erase (p :: queue),
      y.2.log ⟨"post_faint", y.1.1, y.1.2⟩)) := by
    rw [drainStep, if_neg (by simp)]
    exact hy.bind (Fueled.ends_ret _)
  refine ⟨_, hstep, ?_⟩
  have hnodup := hx.nodup.sublist (afterRound_sublist (p :: queue))
  generalize (currentFaintRound (p :: queue)).foldl List.erase (p :: queue) = left at *
  have hleft := queueCost_le y.2.state left
  have hbuild := length_cppBuildFaintQueue y.2.state
  have hcost := queueCost_build y.2.state
  -- the round did nothing only when its head could not be filled
  have hold : y.2.state = d.state ∧ queueCost d.state (p :: queue) = queue.length + 6 ∨
      rank y.2.state < rank d.state := by
    refine hround.imp (fun hall => ⟨congrArg Drain.state hall.1, ?_⟩) id
    rw [queueCost, if_pos (hall.2 p (head_mem_round p queue))]
  simp only [List.length_cons] at hlength hshort
  have hrank : ∀ cost : Nat, cost ≤ 9 → cost ≤ queue.length + 5 → 10 * rank y.2.state + cost <
      10 * rank d.state + queueCost d.state (p :: queue) := by
    intro cost hcap hle
    rcases hold with ⟨hsame, hstuck⟩ | hlt
    · rw [hsame, hstuck]
      omega
    · omega
  have hsound := hfollows.sound hx.sound
  by_cases hempty : left = []
  · rw [if_pos (List.isEmpty_iff.2 hempty)]
    refine ⟨waiting_of_build (d := y.2.log _) hsound, ?_⟩
    exact hrank (queueCost y.2.state (cppBuildFaintQueue y.2.state)) (by omega) (by omega)
  · rw [if_neg (by simpa using hempty)]
    have hfour : left.length ≤ 4 := by omega
    refine ⟨⟨hnodup, hfour, hpending, hsound, fun h => absurd h hempty⟩, ?_⟩
    exact hrank (queueCost y.2.state left) (by omega) (by omega)

/-- Draining ends, sends out only living mons that are not in battle, and leaves no slot that it
could fill. -/
theorem drain_fills_slots (hE : E.Wearing) (hP : P.Offered) (w : Ω) (state : BattleState)
    (actionLog : List FaintLogEntry) :
    ∃ queue d, (cppDrainFaintQueue E P ⟨w, state, actionLog, []⟩
        (cppBuildFaintQueue state)).Ends (queue, d) ∧
      (∀ r ∈ d.sent, r.Sound) ∧ Filled d.state := by
  have hbody : ∀ x : List (Int × Nat) × Drain Ω, Waiting x → (drainStep E P x).Ends none ∨
      ∃ x', (drainStep E P x).Ends (some x') ∧ Waiting x' ∧
        10 * rank x'.2.state + queueCost x'.2.state x'.1 <
          10 * rank x.2.state + queueCost x.2.state x.1 := by
    intro x hx
    by_cases hnil : x.1 = []
    · left
      rw [drainStep, if_pos (List.isEmpty_iff.2 hnil)]
      exact Fueled.ends_ret _
    · exact .inr (drainStep_ends hE hP hx hnil)
  obtain ⟨⟨queue, d⟩, hends, hwaiting, hnone⟩ := Fueled.loop_ends Waiting _ hbody
    (waiting_of_build (d := ⟨w, state, actionLog, []⟩) fun r hr => by cases hr)
  refine ⟨queue, d, hends, hwaiting.sound, filled_of_build (hwaiting.rebuilt ?_)⟩
  by_contra hne
  obtain ⟨x', hsome, -⟩ := drainStep_ends hE hP hwaiting hne
  cases hnone.unique hsome

def loseTen (mon : PokemonState) : PokemonState :=
  if mon.hp.toInt ≤ 10 then { mon with hp := 0, fainted := true }
  else { mon with hp := Int32.ofInt (mon.hp.toInt - 10) }

def spikyRules : EntryRules where
  applyEntryHazards state si := state.modifyActive si loseTen
  applyEntryEffects state _ := state
  speciesTypes _ := .empty

theorem wears_loseTen (mon : PokemonState) : Wears mon (loseTen mon) := by
  unfold loseTen
  split
  · exact fun h => nomatch h
  · rename_i hhp
    refine fun hfainted => ⟨hfainted, ?_⟩
    simp only
    rw [toInt_ofInt_hp mon.hp (by omega) (by omega)]
    omega

theorem wearing_spikyRules : spikyRules.Wearing where
  hazards _ _ := related_modifyMon (wears_loseTen _)
  effects s _ := .refl s

def firstPilots : Pilots Unit where
  selectSwitch _ _ candidates _ _ := (candidates.headD {}, ())
  oracleResolve := none
  forced := false

theorem offered_firstPilots : firstPilots.Offered where
  select _ _ candidates _ _ h := by
    obtain ⟨a, rest, rfl⟩ := List.exists_cons_of_ne_nil h
    exact List.mem_cons_self
  oracle _ h := nomatch h

def benchMon (hp : Int32) (fainted : Bool) : PokemonState :=
  { hasMaxHp := true, maxHp := 40, hasHp := true, hp := hp, fainted := fainted }

/-- Fainted in battle, with a mon on the bench that does not survive its entry and one that
does. -/
def faintedState : BattleState where
  side0 :=
    { team := ⟨[benchMon 0 true, benchMon 8 false, benchMon 40 false], by
        rw [List.length_cons, List.length_cons, List.length_cons, List.length_nil]
        decide⟩
      activeIndices := firstActive }

theorem spiky_drain : ∃ queue d,
    (cppDrainFaintQueue spikyRules firstPilots ⟨(), faintedState, [], []⟩
      (cppBuildFaintQueue faintedState)).Ends (queue, d) ∧
    (∀ r ∈ d.sent, r.Sound) ∧ Filled d.state :=
  drain_fills_slots wearing_spikyRules offered_firstPilots () faintedState []

end Run

end Engine

end NuzlockeSolver
