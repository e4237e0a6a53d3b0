import NuzlockeSolver.Bucket.StateCodec
import NuzlockeSolver.Engine.Effects
import NuzlockeSolver.Engine.StateHash

/-!
# The context interner

`ContextInterner` over the engine's states: a table of masked exemplars, and the ids of each hash.
A comparison that aborts the program aborts the call. The table refines the abstract interner,
whose contexts are what the solver sees of an exemplar.
-/

namespace NuzlockeSolver

namespace Engine

section Key

abbrev PackedKey := UInt64

def ctxIdOf (k : PackedKey) : UInt32 := (k >>> 32).toUInt32

def plHpOf (k : PackedKey) : UInt16 := ((k >>> 16) &&& 0xFFFF).toUInt16

def oppHpOf (k : PackedKey) : UInt16 := (k &&& 0xFFFF).toUInt16

def makePackedKey (ctxId : UInt32) (plHp oppHp : UInt16) : PackedKey :=
  (ctxId.toUInt64 <<< 32) ||| (plHp.toUInt64 <<< 16) ||| oppHp.toUInt64

def fieldsOf (k : PackedKey) : NuzlockeSolver.PackedKey := ⟨ctxIdOf k, plHpOf k, oppHpOf k⟩

variable (c : UInt32) (p o : UInt16)

theorem toNat_makePackedKey :
    (makePackedKey c p o).toNat = c.toNat * 2 ^ 32 + p.toNat * 2 ^ 16 + o.toNat := by
  have hc := c.toNat_lt
  have hp := p.toNat_lt
  have ho := o.toNat_lt
  have h32 : UInt64.toNat 32 % 64 = 32 := rfl
  have h16 : UInt64.toNat 16 % 64 = 16 := rfl
  have hpo : p.toNat <<< 16 ||| o.toNat = p.toNat <<< 16 + o.toNat :=
    (Nat.shiftLeft_add_eq_or_of_lt ho _).symm
  have hcpo : c.toNat <<< 32 ||| (p.toNat <<< 16 + o.toNat) =
      c.toNat <<< 32 + (p.toNat <<< 16 + o.toNat) := by
    refine (Nat.shiftLeft_add_eq_or_of_lt ?_ _).symm
    rw [Nat.shiftLeft_eq]
    omega
  simp only [makePackedKey, UInt64.toNat_or, UInt64.toNat_shiftLeft, UInt32.toNat_toUInt64,
    UInt16.toNat_toUInt64, h32, h16]
  rw [Nat.mod_eq_of_lt, Nat.mod_eq_of_lt, Nat.or_assoc, hpo, hcpo, Nat.shiftLeft_eq,
    Nat.shiftLeft_eq]
  · omega
  · rw [Nat.shiftLeft_eq]
    omega
  · rw [Nat.shiftLeft_eq]
    omega

@[simp] theorem ctxIdOf_makePackedKey : ctxIdOf (makePackedKey c p o) = c := by
  have hc := c.toNat_lt
  have hp := p.toNat_lt
  have ho := o.toNat_lt
  have h32 : UInt64.toNat 32 % 64 = 32 := rfl
  apply UInt32.toNat_inj.1
  simp only [ctxIdOf, UInt64.toNat_toUInt32, UInt64.toNat_shiftRight, toNat_makePackedKey, h32,
    Nat.shiftRight_eq_div_pow]
  omega

@[simp] theorem plHpOf_makePackedKey : plHpOf (makePackedKey c p o) = p := by
  have hp := p.toNat_lt
  have ho := o.toNat_lt
  have h16 : UInt64.toNat 16 % 64 = 16 := rfl
  have hmask : UInt64.toNat 0xFFFF = 2 ^ 16 - 1 := rfl
  apply UInt16.toNat_inj.1
  simp only [plHpOf, UInt64.toNat_toUInt16, UInt64.toNat_and, UInt64.toNat_shiftRight,
    toNat_makePackedKey, h16, hmask, Nat.shiftRight_eq_div_pow, Nat.and_two_pow_sub_one_eq_mod]
  omega

@[simp] theorem oppHpOf_makePackedKey : oppHpOf (makePackedKey c p o) = o := by
  have ho := o.toNat_lt
  have hmask : UInt64.toNat 0xFFFF = 2 ^ 16 - 1 := rfl
  apply UInt16.toNat_inj.1
  simp only [oppHpOf, UInt64.toNat_toUInt16, UInt64.toNat_and, toNat_makePackedKey, hmask,
    Nat.and_two_pow_sub_one_eq_mod]
  omega

theorem makePackedKey_fields (k : PackedKey) :
    makePackedKey (ctxIdOf k) (plHpOf k) (oppHpOf k) = k := by
  have hk := k.toNat_lt
  have h32 : UInt64.toNat 32 % 64 = 32 := rfl
  have h16 : UInt64.toNat 16 % 64 = 16 := rfl
  have hmask : UInt64.toNat 0xFFFF = 2 ^ 16 - 1 := rfl
  apply UInt64.toNat_inj.1
  simp only [toNat_makePackedKey, ctxIdOf, plHpOf, oppHpOf, UInt64.toNat_toUInt32,
    UInt64.toNat_toUInt16, UInt64.toNat_and, UInt64.toNat_shiftRight, h32, h16, hmask,
    Nat.shiftRight_eq_div_pow, Nat.and_two_pow_sub_one_eq_mod]
  omega

theorem fieldsOf_injective {k k' : PackedKey} (h : fieldsOf k = fieldsOf k') : k = k' := by
  have hctx : ctxIdOf k = ctxIdOf k' := congrArg NuzlockeSolver.PackedKey.ctx h
  have hpl : plHpOf k = plHpOf k' := congrArg NuzlockeSolver.PackedKey.plHp h
  have hopp : oppHpOf k = oppHpOf k' := congrArg NuzlockeSolver.PackedKey.oppHp h
  rw [← makePackedKey_fields k, hctx, hpl, hopp, makePackedKey_fields]

end Key

section Interner

def getSoleActiveIdx (side : SideState) (sideName : String) : Except Fault Int32 :=
  match side.activeIndices.toList with
  | [idx] => .ok idx
  | _ => .error (.logicError
      ("state_codec: " ++ sideName ++ " must have exactly 1 active for 1v1 solver"))

def PokemonState.setHp (m : PokemonState) (hp : Int32) : PokemonState := { m with hp := hp }

def SideState.setHp (side : SideState) (idx hp : Int32) : SideState :=
  side.setMon idx ((side.mon idx).setHp hp)

def BattleState.setHps (state : BattleState) (plIdx oppIdx plHp oppHp : Int32) : BattleState :=
  { state with
    side0 := state.side0.setHp plIdx plHp
    side1 := state.side1.setHp oppIdx oppHp }

def maskHp (state : BattleState) : Except Fault BattleState := do
  let plIdx ← getSoleActiveIdx state.side0 "side0"
  let oppIdx ← getSoleActiveIdx state.side1 "side1"
  return state.setHps plIdx oppIdx 0 0

/-- What `pack` reads of a state before the lookup: its context and the two HP values. -/
def readState (state : BattleState) : Except Fault (BattleState × UInt16 × UInt16) := do
  let plIdx ← getSoleActiveIdx state.side0 "side0"
  let oppIdx ← getSoleActiveIdx state.side1 "side1"
  let rawPlHp := (state.side0.mon plIdx).hp.toInt
  let rawOppHp := (state.side1.mon oppIdx).hp.toInt
  if ¬ NuzlockeSolver.ContextInterner.FitsHp rawPlHp then
    throw (.runtimeError "state_codec: player active HP does not fit 16 bits")
  if ¬ NuzlockeSolver.ContextInterner.FitsHp rawOppHp then
    throw (.runtimeError "state_codec: opponent active HP does not fit 16 bits")
  let masked ← maskHp state
  return (masked, UInt16.ofNat rawPlHp.toNat, UInt16.ofNat rawOppHp.toNat)

structure ContextInterner where
  buckets : UInt64 → List UInt32
  exemplars : List BattleState

namespace ContextInterner

def empty : ContextInterner := ⟨fun _ => [], []⟩

def scan (exemplars : List BattleState) (masked : BattleState) :
    List UInt32 → Option (Option UInt32)
  | [] => some none
  | id :: ids => do
    let equal ← (exemplars.getD id.toNat {}).stateEqualSolver masked
    if equal then some (some id) else scan exemplars masked ids

def addContext (I : ContextInterner) (h : UInt64) (masked : BattleState) : ContextInterner where
  buckets := Function.update I.buckets h
    (I.buckets h ++ [UInt32.ofNat I.exemplars.length])
  exemplars := I.exemplars ++ [masked]

variable (H : StdHash)

def pack (I : ContextInterner) (state : BattleState) :
    Option (Except Fault PackedKey × ContextInterner) :=
  match readState state with
  | .error fault => some (.error fault, I)
  | .ok (masked, plHp, oppHp) => do
    let h := masked.stateHashSolver H
    match ← scan I.exemplars masked (I.buckets h) with
    | some id => return (.ok (makePackedKey id plHp oppHp), I)
    | none =>
      if uint32Max ≤ I.exemplars.length then
        return (.error (.runtimeError "state_codec: context id overflow (> 2^32 contexts)"), I)
      else
        return (.ok (makePackedKey (UInt32.ofNat I.exemplars.length) plHp oppHp),
          I.addContext h masked)

def unpack (I : ContextInterner) (key : PackedKey) : Except Fault BattleState :=
  match I.exemplars[(ctxIdOf key).toNat]? with
  | none => .error (.logicError "state_codec: ctx_id out of range in unpack")
  | some exemplar => do
    let plIdx ← getSoleActiveIdx exemplar.side0 "side0"
    let oppIdx ← getSoleActiveIdx exemplar.side1 "side1"
    return exemplar.setHps plIdx oppIdx (Int32.ofInt (plHpOf key).toNat)
      (Int32.ofInt (oppHpOf key).toNat)

end ContextInterner

structure BattleState.Packable (s : BattleState) (plIdx oppIdx : Int32) : Prop where
  side0 : s.side0.activeIndices.toList = [plIdx]
  side1 : s.side1.activeIndices.toList = [oppIdx]
  plFits : NuzlockeSolver.ContextInterner.FitsHp (s.side0.mon plIdx).hp.toInt
  oppFits : NuzlockeSolver.ContextInterner.FitsHp (s.side1.mon oppIdx).hp.toInt

def hpBits (side : SideState) (idx : Int32) : UInt16 := UInt16.ofNat (side.mon idx).hp.toInt.toNat

theorem getSoleActiveIdx_eq_ok {side : SideState} {name : String} {idx : Int32} :
    getSoleActiveIdx side name = .ok idx ↔ side.activeIndices.toList = [idx] := by
  unfold getSoleActiveIdx
  split
  · rename_i idx' h
    simp [h]
  · rename_i hne
    simp only [reduceCtorEq, false_iff]
    exact hne idx

theorem readState_eq_ok {s : BattleState} {read : BattleState × UInt16 × UInt16} :
    readState s = .ok read ↔ ∃ plIdx oppIdx, s.Packable plIdx oppIdx ∧
      read = (s.setHps plIdx oppIdx 0 0, hpBits s.side0 plIdx, hpBits s.side1 oppIdx) := by
  constructor
  · intro h
    obtain ⟨plIdx, hpl, h⟩ := bind_eq_ok.1 h
    obtain ⟨oppIdx, hopp, h⟩ := bind_eq_ok.1 h
    simp only [maskHp, hpl, hopp] at h
    split at h
    · cases h
    split at h
    · cases h
    rename_i hplFits hoppFits
    cases h
    exact ⟨plIdx, oppIdx, ⟨getSoleActiveIdx_eq_ok.1 hpl, getSoleActiveIdx_eq_ok.1 hopp,
      not_not.1 hplFits, not_not.1 hoppFits⟩, rfl⟩
  · rintro ⟨plIdx, oppIdx, hs, rfl⟩
    have hpl : getSoleActiveIdx s.side0 "side0" = .ok plIdx := getSoleActiveIdx_eq_ok.2 hs.side0
    have hopp : getSoleActiveIdx s.side1 "side1" = .ok oppIdx :=
      getSoleActiveIdx_eq_ok.2 hs.side1
    simp only [readState, maskHp, hpl, hopp, ok_bind, hs.plFits, hs.oppFits, not_true_eq_false,
      if_false]
    rfl

end Interner

section Masking

theorem visible_mon (side : SideState) (idx : Int32) :
    side.visible.mon idx = (side.mon idx).visible := by
  have hdefault : (default : PokemonState).visible = default := rfl
  rw [SideState.mon, SideState.mon, ← hdefault]
  exact List.getD_map _ _ _

theorem visible_setHp (m : PokemonState) (hp : Int32) :
    (m.setHp hp).visible = m.visible.setHp (if m.visible.hasHp then hp else 0) :=
  rfl

theorem visible_setMon (side : SideState) (idx : Int32) (m : PokemonState) :
    (side.setMon idx m).visible = side.visible.setMon idx m.visible := by
  have hteam : (side.team.set idx.toInt.toNat m).map PokemonState.visible =
      (side.team.map PokemonState.visible).set idx.toInt.toNat m.visible :=
    InlineVec.ext List.map_set
  have hvisible : (side.setMon idx m).visible = { side.visible with
      team := (side.team.set idx.toInt.toNat m).map PokemonState.visible } := rfl
  rw [hvisible, hteam]
  rfl

/-- What is seen of a side after a change of HP depends on what was seen of it before. -/
theorem visible_setHp_congr {s t : SideState} (h : s.visible = t.visible) (idx hp : Int32) :
    (s.setHp idx hp).visible = (t.setHp idx hp).visible := by
  rw [SideState.setHp, SideState.setHp, visible_setMon, visible_setMon, visible_setHp,
    visible_setHp, ← visible_mon, ← visible_mon, h]

theorem solverView_setHps_congr {s t : BattleState} (h : s.solverView = t.solverView)
    (plIdx oppIdx plHp oppHp : Int32) :
    (s.setHps plIdx oppIdx plHp oppHp).solverView =
      (t.setHps plIdx oppIdx plHp oppHp).solverView := by
  have h0 : s.side0.visible = t.side0.visible := congrArg BattleState.side0 h
  have h1 : s.side1.visible = t.side1.visible := congrArg BattleState.side1 h
  have key : ∀ r : BattleState, (r.setHps plIdx oppIdx plHp oppHp).solverView =
      { r.solverView with
        side0 := (r.side0.setHp plIdx plHp).visible
        side1 := (r.side1.setHp oppIdx oppHp).visible } := fun r => rfl
  rw [key, key, h, visible_setHp_congr h0, visible_setHp_congr h1]

theorem setHp_setHp (side : SideState) (idx hp hp' : Int32) :
    (side.setHp idx hp).setHp idx hp' = side.setHp idx hp' := by
  have hmon : ((side.setHp idx hp).mon idx).setHp hp' = (side.mon idx).setHp hp' := by
    rw [SideState.setHp, mon_setMon]
    split
    · rfl
    · rfl
  rw [SideState.setHp, hmon]
  have hteam : (side.team.set idx.toInt.toNat ((side.mon idx).setHp hp)).set idx.toInt.toNat
      ((side.mon idx).setHp hp') =
      side.team.set idx.toInt.toNat ((side.mon idx).setHp hp') :=
    InlineVec.ext (List.set_set _)
  simp only [SideState.setHp, SideState.setMon, hteam]

theorem setHp_self (side : SideState) (idx : Int32) :
    side.setHp idx (side.mon idx).hp = side := by
  have hteam : side.team.set idx.toInt.toNat (side.mon idx) = side.team := by
    apply InlineVec.ext
    by_cases hlt : idx.toInt.toNat < side.team.toList.length
    · rw [SideState.mon, List.getD_eq_getElem _ _ hlt]
      exact List.set_getElem_self hlt
    · exact List.set_eq_of_length_le (not_lt.1 hlt)
  have hmon : (side.mon idx).setHp (side.mon idx).hp = side.mon idx := rfl
  rw [SideState.setHp, hmon, SideState.setMon, hteam]

theorem setHps_restore (s : BattleState) (plIdx oppIdx : Int32) :
    (s.setHps plIdx oppIdx 0 0).setHps plIdx oppIdx (s.side0.mon plIdx).hp
      (s.side1.mon oppIdx).hp = s := by
  simp only [BattleState.setHps, setHp_setHp, setHp_self]

theorem activeIndices_of_view {s t : BattleState} (h : s.solverView = t.solverView) :
    s.side0.activeIndices = t.side0.activeIndices ∧
      s.side1.activeIndices = t.side1.activeIndices :=
  ⟨congrArg (fun r => r.side0.activeIndices) h, congrArg (fun r => r.side1.activeIndices) h⟩

theorem hp_of_visible {s t : SideState} (h : s.visible = t.visible) {idx : Int32}
    (hs : (s.mon idx).hasHp = true) : (s.mon idx).hp = (t.mon idx).hp := by
  have hmon : (s.mon idx).visible = (t.mon idx).visible := by rw [← visible_mon, h, visible_mon]
  have ht : (t.mon idx).hasHp = true := by
    rw [← hs]
    exact (congrArg PokemonState.hasHp hmon).symm
  have hhp := congrArg PokemonState.hp hmon
  simpa only [PokemonState.visible, hs, ht, if_true] using hhp

end Masking

section Table

variable (H : StdHash)

structure ContextInterner.Consistent (I : ContextInterner) : Prop where
  distinct : (I.exemplars.map BattleState.solverView).Nodup
  bounded : I.exemplars.length ≤ uint32Max
  filed : ∀ h id, id ∈ I.buckets h ↔
    ∃ e, I.exemplars[id.toNat]? = some e ∧ e.stateHashSolver H = h

variable {H} {I J : ContextInterner}

theorem consistent_empty : ContextInterner.empty.Consistent H where
  distinct := List.nodup_nil
  bounded := Nat.zero_le _
  filed h id := by simp [ContextInterner.empty]

/-- The abstract interner: its contexts are the views of the exemplars. -/
def ContextInterner.views (I : ContextInterner) (hI : I.Consistent H) :
    NuzlockeSolver.ContextInterner BattleState where
  exemplars := I.exemplars.map BattleState.solverView
  nodup := hI.distinct
  bounded := by
    rw [List.length_map]
    exact hI.bounded

theorem scan_some {exemplars : List BattleState} {masked : BattleState} {ids : List UInt32}
    {id : UInt32} (h : ContextInterner.scan exemplars masked ids = some (some id)) :
    id ∈ ids ∧ (exemplars.getD id.toNat {}).stateEqualSolver masked = some true := by
  induction ids with
  | nil => cases h
  | cons id' ids ih =>
    rw [ContextInterner.scan] at h
    obtain ⟨equal, hequal, h⟩ := Option.bind_eq_some_iff.1 h
    cases equal with
    | true =>
      cases h
      exact ⟨List.mem_cons_self, hequal⟩
    | false => exact ⟨List.mem_cons_of_mem _ (ih h).1, (ih h).2⟩

theorem scan_none {exemplars : List BattleState} {masked : BattleState} {ids : List UInt32}
    (h : ContextInterner.scan exemplars masked ids = some none) {id : UInt32} (hid : id ∈ ids) :
    (exemplars.getD id.toNat {}).stateEqualSolver masked = some false := by
  induction ids with
  | nil => cases hid
  | cons id' ids ih =>
    rw [ContextInterner.scan] at h
    obtain ⟨equal, hequal, h⟩ := Option.bind_eq_some_iff.1 h
    cases equal with
    | true => cases h
    | false =>
      rcases List.mem_cons.1 hid with rfl | hid
      · exact hequal
      · exact ih h hid

theorem exemplar_of_scan (hI : I.Consistent H) {masked : BattleState} {id : UInt32}
    (h : ContextInterner.scan I.exemplars masked (I.buckets (masked.stateHashSolver H)) =
      some (some id)) :
    ∃ e, I.exemplars[id.toNat]? = some e ∧ e.solverView = masked.solverView := by
  obtain ⟨hmem, hequal⟩ := scan_some h
  obtain ⟨e, he, -⟩ := (hI.filed _ _).1 hmem
  rw [List.getD_eq_getElem?_getD, he] at hequal
  exact ⟨e, he, (BattleState.stateEqualSolver_iff hequal).1 rfl⟩

theorem view_new_of_scan (hI : I.Consistent H) {masked : BattleState}
    (h : ContextInterner.scan I.exemplars masked (I.buckets (masked.stateHashSolver H)) =
      some none) :
    masked.solverView ∉ I.exemplars.map BattleState.solverView := by
  intro hmem
  obtain ⟨e, he, hview⟩ := List.mem_map.1 hmem
  obtain ⟨n, hn, hget⟩ := List.getElem_of_mem he
  have hid : (UInt32.ofNat n).toNat = n :=
    NuzlockeSolver.ContextInterner.toNat_ofNat_of_lt (hn.le.trans hI.bounded)
  have hsome : I.exemplars[(UInt32.ofNat n).toNat]? = some e := by
    rw [hid, List.getElem?_eq_getElem hn, hget]
  have hhash : e.stateHashSolver H = masked.stateHashSolver H := by
    rw [← stateHashSolver_view, hview, stateHashSolver_view]
  have hequal := scan_none h ((hI.filed _ _).2 ⟨e, hsome, hhash⟩)
  rw [List.getD_eq_getElem?_getD, hsome] at hequal
  exact Bool.false_ne_true ((BattleState.stateEqualSolver_iff hequal).2 hview)

theorem consistent_addContext (hI : I.Consistent H) {masked : BattleState}
    (hnew : masked.solverView ∉ I.exemplars.map BattleState.solverView)
    (hroom : I.exemplars.length < uint32Max) :
    (I.addContext (masked.stateHashSolver H) masked).Consistent H where
  distinct := by
    rw [ContextInterner.addContext, List.map_append]
    refine List.nodup_append.2 ⟨hI.distinct, List.nodup_singleton _, ?_⟩
    rintro a ha b hb rfl
    exact hnew (List.mem_singleton.1 hb ▸ ha)
  bounded := by
    rw [ContextInterner.addContext, List.length_append, List.length_singleton]
    omega
  filed h id := by
    have hnat : (UInt32.ofNat I.exemplars.length).toNat = I.exemplars.length :=
      NuzlockeSolver.ContextInterner.toNat_ofNat_of_lt hroom.le
    have hmem : id ∈ (I.addContext (masked.stateHashSolver H) masked).buckets h ↔
        id ∈ I.buckets h ∨ (h = masked.stateHashSolver H ∧
          id = UInt32.ofNat I.exemplars.length) := by
      simp only [ContextInterner.addContext]
      by_cases hh : h = masked.stateHashSolver H
      · subst hh
        simp
      · simp [hh]
    rw [hmem, hI.filed]
    by_cases hid : id = UInt32.ofNat I.exemplars.length
    · subst hid
      simp only [ContextInterner.addContext, hnat, List.getElem?_concat_length,
        List.getElem?_eq_none le_rfl]
      simp [eq_comm]
    · have hne : id.toNat ≠ I.exemplars.length := fun heq =>
        hid (UInt32.toNat_inj.1 (heq.trans hnat.symm))
      have hget : (I.exemplars ++ [masked])[id.toNat]? = I.exemplars[id.toNat]? := by
        rcases lt_or_gt_of_ne hne with hlt | hlt
        · rw [List.getElem?_append_left hlt]
        · rw [List.getElem?_eq_none (by simp; omega), List.getElem?_eq_none hlt.le]
      simp only [ContextInterner.addContext, hget, hid, and_false, or_false]

theorem pack_cases {s : BattleState} {r : Except Fault PackedKey} (h : I.pack H s = some (r, J)) :
    (∃ fault, readState s = .error fault ∧ r = .error fault ∧ J = I) ∨
      ∃ masked plHp oppHp, readState s = .ok (masked, plHp, oppHp) ∧
        ((∃ id, ContextInterner.scan I.exemplars masked (I.buckets (masked.stateHashSolver H)) =
            some (some id) ∧ r = .ok (makePackedKey id plHp oppHp) ∧ J = I) ∨
          (ContextInterner.scan I.exemplars masked (I.buckets (masked.stateHashSolver H)) =
              some none ∧
            ((uint32Max ≤ I.exemplars.length ∧
                r = .error (.runtimeError "state_codec: context id overflow (> 2^32 contexts)") ∧
                J = I) ∨
              (I.exemplars.length < uint32Max ∧
                r = .ok (makePackedKey (UInt32.ofNat I.exemplars.length) plHp oppHp) ∧
                J = I.addContext (masked.stateHashSolver H) masked)))) := by
  unfold ContextInterner.pack at h
  split at h
  · rename_i fault hread
    cases h
    exact .inl ⟨fault, hread, rfl, rfl⟩
  · rename_i masked plHp oppHp hread
    refine .inr ⟨masked, plHp, oppHp, hread, ?_⟩
    obtain ⟨found, hscan, h⟩ := Option.bind_eq_some_iff.1 h
    cases found with
    | some id =>
      cases h
      exact .inl ⟨id, hscan, rfl, rfl⟩
    | none =>
      refine .inr ⟨hscan, ?_⟩
      simp only at h
      split at h
      · rename_i hfull
        cases h
        exact .inl ⟨hfull, rfl, rfl⟩
      · rename_i hfull
        cases h
        exact .inr ⟨not_le.1 hfull, rfl, rfl⟩

/-- A packable state in the abstract: what the solver sees of its context, and the two HP. -/
def BattleState.abstractState (s : BattleState) (plIdx oppIdx : Int32) :
    NuzlockeSolver.BattleState BattleState where
  ctx := (s.setHps plIdx oppIdx 0 0).solverView
  playerHp := (s.side0.mon plIdx).hp.toInt
  oppHp := (s.side1.mon oppIdx).hp.toInt

open Classical in
theorem pack_refines (hI : I.Consistent H) {s : BattleState} {key : PackedKey}
    (h : I.pack H s = some (.ok key, J)) :
    ∃ plIdx oppIdx, ∃ hJ : J.Consistent H, s.Packable plIdx oppIdx ∧
      (I.views hI).pack (s.abstractState plIdx oppIdx) = .ok (fieldsOf key, J.views hJ) := by
  rcases pack_cases h with ⟨fault, -, hr, -⟩ | ⟨masked, plHp, oppHp, hread, hpack⟩
  · cases hr
  obtain ⟨plIdx, oppIdx, hs, hmasked⟩ := readState_eq_ok.1 hread
  cases hmasked
  have hbits : ∀ id, fieldsOf (makePackedKey id (hpBits s.side0 plIdx) (hpBits s.side1 oppIdx)) =
      NuzlockeSolver.makePackedKey id (s.abstractState plIdx oppIdx).playerHp
        (s.abstractState plIdx oppIdx).oppHp := by
    intro id
    rw [fieldsOf, ctxIdOf_makePackedKey, plHpOf_makePackedKey, oppHpOf_makePackedKey]
    rfl
  refine ⟨plIdx, oppIdx, ?_⟩
  rcases hpack with ⟨id, hscan, hr, rfl⟩ | ⟨hscan, ⟨-, hr, -⟩ | ⟨hroom, hr, rfl⟩⟩
  · obtain ⟨e, he, heview⟩ := exemplar_of_scan hI hscan
    cases hr
    refine ⟨hI, hs, ?_⟩
    rw [hbits]
    refine NuzlockeSolver.ContextInterner.pack_of_context hs.plFits hs.oppFits ?_
    rw [ContextInterner.views, List.getElem?_map, he]
    exact congrArg some heview
  · cases hr
  · have hnew := view_new_of_scan hI hscan
    cases hr
    refine ⟨consistent_addContext hI hnew hroom, hs, ?_⟩
    rw [hbits]
    have hlength : (I.views hI).exemplars.length = I.exemplars.length := List.length_map _
    rw [← hlength] at hroom ⊢
    refine NuzlockeSolver.ContextInterner.pack_of_new hs.plFits hs.oppFits hnew hroom ?_
    exact List.map_append

theorem unpack_of_views (hI : I.Consistent H) {s : BattleState} {plIdx oppIdx : Int32}
    (hs : s.Packable plIdx oppIdx) {key : PackedKey}
    (h : (I.views hI).unpack (fieldsOf key) = .ok (s.abstractState plIdx oppIdx)) :
    ∃ u, I.unpack key = .ok u ∧ u.solverView = s.solverView := by
  obtain ⟨hctx, hp, ho⟩ := NuzlockeSolver.ContextInterner.unpack_eq_ok.1 h
  rw [ContextInterner.views, List.getElem?_map] at hctx
  obtain ⟨e, he, hview⟩ := Option.map_eq_some_iff.1 hctx
  have hactive := activeIndices_of_view hview
  have hpl : getSoleActiveIdx e.side0 "side0" = .ok plIdx := by
    rw [getSoleActiveIdx_eq_ok, hactive.1]
    exact hs.side0
  have hopp : getSoleActiveIdx e.side1 "side1" = .ok oppIdx := by
    rw [getSoleActiveIdx_eq_ok, hactive.2]
    exact hs.side1
  have hplHp : Int32.ofInt (plHpOf key).toNat = (s.side0.mon plIdx).hp := by
    rw [show ((plHpOf key).toNat : Int) = (s.side0.mon plIdx).hp.toInt from hp, Int32.ofInt_toInt]
  have hoppHp : Int32.ofInt (oppHpOf key).toNat = (s.side1.mon oppIdx).hp := by
    rw [show ((oppHpOf key).toNat : Int) = (s.side1.mon oppIdx).hp.toInt from ho,
      Int32.ofInt_toInt]
  refine ⟨e.setHps plIdx oppIdx (s.side0.mon plIdx).hp (s.side1.mon oppIdx).hp, ?_, ?_⟩
  · have hid : I.exemplars[(ctxIdOf key).toNat]? = some e := he
    rw [ContextInterner.unpack, hid]
    simp only [hpl, hopp, ok_bind, hplHp, hoppHp]
    rfl
  · rw [solverView_setHps_congr hview, setHps_restore]

/-- Packable states look the same to the solver exactly when they do in the abstract. -/
theorem abstractState_eq_iff {s t : BattleState} {plIdx oppIdx plIdx' oppIdx' : Int32}
    (hs : s.Packable plIdx oppIdx) (ht : t.Packable plIdx' oppIdx')
    (hpl : (s.side0.mon plIdx).hasHp = true) (hopp : (s.side1.mon oppIdx).hasHp = true) :
    s.abstractState plIdx oppIdx = t.abstractState plIdx' oppIdx' ↔
      s.solverView = t.solverView := by
  have hidx : s.side0.activeIndices = t.side0.activeIndices →
      s.side1.activeIndices = t.side1.activeIndices → plIdx' = plIdx ∧ oppIdx' = oppIdx := by
    intro h0 h1
    have hlist0 := (hs.side0.symm.trans (congrArg InlineVec.toList h0)).trans ht.side0
    have hlist1 := (hs.side1.symm.trans (congrArg InlineVec.toList h1)).trans ht.side1
    exact ⟨(List.singleton_inj.1 hlist0).symm, (List.singleton_inj.1 hlist1).symm⟩
  constructor
  · intro h
    have hview : (s.setHps plIdx oppIdx 0 0).solverView =
        (t.setHps plIdx' oppIdx' 0 0).solverView :=
      congrArg NuzlockeSolver.BattleState.ctx h
    have hactive := activeIndices_of_view hview
    obtain ⟨rfl, rfl⟩ := hidx hactive.1 hactive.2
    have hplHp : (s.side0.mon plIdx').hp = (t.side0.mon plIdx').hp :=
      Int32.toInt_inj.1 (congrArg NuzlockeSolver.BattleState.playerHp h)
    have hoppHp : (s.side1.mon oppIdx').hp = (t.side1.mon oppIdx').hp :=
      Int32.toInt_inj.1 (congrArg NuzlockeSolver.BattleState.oppHp h)
    rw [← setHps_restore s plIdx' oppIdx', ← setHps_restore t plIdx' oppIdx', hplHp, hoppHp]
    exact solverView_setHps_congr hview _ _ _ _
  · intro h
    have hactive := activeIndices_of_view h
    obtain ⟨rfl, rfl⟩ := hidx hactive.1 hactive.2
    have hplHp := hp_of_visible (congrArg BattleState.side0 h) hpl
    have hoppHp := hp_of_visible (congrArg BattleState.side1 h) hopp
    rw [BattleState.abstractState, BattleState.abstractState, solverView_setHps_congr h, hplHp,
      hoppHp]

end Table

section Runs

inductive CodecCall
  | pack (state : BattleState)
  | unpack (key : PackedKey)

inductive CodecAnswer
  | key (key : PackedKey)
  | state (state : BattleState)
  | thrown (fault : Fault)

variable (H : StdHash)

def ContextInterner.call (I : ContextInterner) :
    CodecCall → Option (CodecAnswer × ContextInterner)
  | .pack state => do
    match ← I.pack H state with
    | (.ok key, J) => return (.key key, J)
    | (.error fault, J) => return (.thrown fault, J)
  | .unpack key =>
    match I.unpack key with
    | .ok state => return (.state state, I)
    | .error fault => return (.thrown fault, I)

/-- Calls one after the other; a fault of one is no fault of the next. -/
def runCalls (I : ContextInterner) :
    List CodecCall → Option (List CodecAnswer × ContextInterner)
  | [] => return ([], I)
  | c :: calls => do
    let (answer, J) ← I.call H c
    let (answers, K) ← runCalls J calls
    return (answer :: answers, K)

/-- The HP values of the actives, side by side. -/
def BattleState.activeHps (s : BattleState) : List Int32 × List Int32 :=
  (s.side0.activeIndices.toList.map fun idx => (s.side0.mon idx).hp,
    s.side1.activeIndices.toList.map fun idx => (s.side1.mon idx).hp)

/-- Both actives have an HP value, of at most 16 bits. -/
def BattleState.HasHpValues (s : BattleState) : Prop :=
  ∃ plIdx oppIdx, s.Packable plIdx oppIdx ∧ (s.side0.mon plIdx).hasHp = true ∧
    (s.side1.mon oppIdx).hasHp = true

variable {H} {I J : ContextInterner}

/-- The key stands for the state. -/
def ContextInterner.Names (I : ContextInterner) (hI : I.Consistent H) (key : PackedKey)
    (s : BattleState) : Prop :=
  ∃ plIdx oppIdx, s.Packable plIdx oppIdx ∧
    (I.views hI).unpack (fieldsOf key) = .ok (s.abstractState plIdx oppIdx)

def Answered (I : ContextInterner) (hI : I.Consistent H) : CodecCall → CodecAnswer → Prop
  | .pack s, .key key => I.Names hI key s
  | .pack s, .thrown _ => ¬ s.HasHpValues ∨ uint32Max ≤ I.exemplars.length
  | .unpack key, .state u => I.unpack key = .ok u
  | .unpack _, .thrown _ => True
  | .pack _, .state _ => False
  | .unpack _, .key _ => False

theorem unpack_of_extends (h : I.exemplars <+: J.exemplars) {key : PackedKey} {u : BattleState}
    (hu : I.unpack key = .ok u) : J.unpack key = .ok u := by
  unfold ContextInterner.unpack at hu ⊢
  split at hu
  · cases hu
  · rename_i e he
    obtain ⟨rest, hrest⟩ := h
    have hJ : J.exemplars[(ctxIdOf key).toNat]? = some e := by
      rw [← hrest, List.getElem?_append_left (List.getElem?_eq_some_iff.1 he).1, he]
    rw [hJ]
    exact hu

theorem Answered.of_extends {hI : I.Consistent H} {hJ : J.Consistent H}
    (h : I.exemplars <+: J.exemplars) {c : CodecCall} {a : CodecAnswer} (ha : Answered I hI c a) :
    Answered J hJ c a := by
  cases c with
  | pack s =>
    cases a with
    | key key =>
      obtain ⟨plIdx, oppIdx, hs, hunpack⟩ := ha
      have hviews : (I.views hI).Extends (J.views hJ) := h.map _
      exact ⟨plIdx, oppIdx, hs, hviews.unpack hunpack⟩
    | state u => exact ha
    | thrown fault => exact ha.imp_right fun hfull => hfull.trans h.length_le
  | unpack key =>
    cases a with
    | key key' => exact ha
    | state u => exact unpack_of_extends h ha
    | thrown fault => trivial

theorem pack_extends {s : BattleState} {r : Except Fault PackedKey}
    (h : I.pack H s = some (r, J)) : I.exemplars <+: J.exemplars := by
  rcases pack_cases h with
    ⟨_, _, _, rfl⟩ | ⟨_, _, _, _, ⟨_, _, _, rfl⟩ | ⟨_, ⟨_, _, rfl⟩ | ⟨_, _, rfl⟩⟩⟩
  · exact List.prefix_rfl
  · exact List.prefix_rfl
  · exact List.prefix_rfl
  · exact List.prefix_append _ _

theorem pack_error {s : BattleState} {fault : Fault} (h : I.pack H s = some (.error fault, J)) :
    J = I ∧ (¬ s.HasHpValues ∨ uint32Max ≤ I.exemplars.length) := by
  rcases pack_cases h with ⟨fault, hread, -, rfl⟩ | ⟨_, _, _, _, ⟨_, _, hr, _⟩ | ⟨_, hnew⟩⟩
  · refine ⟨rfl, .inl ?_⟩
    rintro ⟨plIdx, oppIdx, hs, -⟩
    cases hread.symm.trans (readState_eq_ok.2 ⟨plIdx, oppIdx, hs, rfl⟩)
  · cases hr
  · rcases hnew with ⟨hfull, -, rfl⟩ | ⟨-, hr, -⟩
    · exact ⟨rfl, .inr hfull⟩
    · cases hr

open Classical in
/-- One call keeps the table consistent, only adds exemplars, and is answered rightly. -/
theorem call_spec (hI : I.Consistent H) {c : CodecCall} {a : CodecAnswer}
    (h : I.call H c = some (a, J)) :
    I.exemplars <+: J.exemplars ∧ ∃ hJ : J.Consistent H, Answered J hJ c a := by
  cases c with
  | pack s =>
    obtain ⟨⟨r, K⟩, hpack, h⟩ := Option.bind_eq_some_iff.1 h
    cases r with
    | ok key =>
      cases h
      obtain ⟨plIdx, oppIdx, hJ, hs, habs⟩ := pack_refines hI hpack
      exact ⟨pack_extends hpack, hJ, plIdx, oppIdx, hs,
        NuzlockeSolver.ContextInterner.unpack_pack habs⟩
    | error fault =>
      cases h
      obtain ⟨rfl, hfault⟩ := pack_error hpack
      exact ⟨List.prefix_rfl, hI, hfault⟩
  | unpack key =>
    rw [ContextInterner.call] at h
    split at h
    · rename_i u hu
      cases h
      exact ⟨List.prefix_rfl, hI, hu⟩
    · cases h
      exact ⟨List.prefix_rfl, hI, trivial⟩

theorem runCalls_spec (hI : I.Consistent H) {calls : List CodecCall} {answers : List CodecAnswer}
    (h : runCalls H I calls = some (answers, J)) :
    I.exemplars <+: J.exemplars ∧
      ∃ hJ : J.Consistent H, List.Forall₂ (Answered J hJ) calls answers := by
  induction calls generalizing I answers with
  | nil =>
    cases h
    exact ⟨List.prefix_rfl, hI, .nil⟩
  | cons c calls ih =>
    obtain ⟨⟨answer, K⟩, hcall, h⟩ := Option.bind_eq_some_iff.1 h
    obtain ⟨⟨rest, L⟩, hrun, h⟩ := Option.bind_eq_some_iff.1 h
    cases h
    obtain ⟨hext, hK, hanswer⟩ := call_spec hI hcall
    obtain ⟨hext', hJ, hanswers⟩ := ih hK hrun
    exact ⟨hext.trans hext', hJ, .cons (hanswer.of_extends hext') hanswers⟩

/-- The call at a place packs the state, and is answered with the key. -/
def PackedAt (calls : List CodecCall) (answers : List CodecAnswer) (i : Nat) (s : BattleState)
    (key : PackedKey) : Prop :=
  calls[i]? = some (.pack s) ∧ answers[i]? = some (.key key)

theorem forall₂_getElem? {α β : Type} {R : α → β → Prop} {l : List α} {m : List β}
    (h : List.Forall₂ R l m) {i : Nat} {a : α} (ha : l[i]? = some a) :
    ∃ b, m[i]? = some b ∧ R a b := by
  have hlt : i < l.length := (List.getElem?_eq_some_iff.1 ha).1
  have hlt' : i < m.length := h.length_eq ▸ hlt
  refine ⟨m[i], List.getElem?_eq_getElem hlt', ?_⟩
  rw [← (List.getElem?_eq_some_iff.1 ha).2]
  exact h.get hlt hlt'

theorem names_of_packedAt {hI : I.Consistent H} {calls : List CodecCall}
    {answers : List CodecAnswer} (h : List.Forall₂ (Answered I hI) calls answers) {i : Nat}
    {s : BattleState} {key : PackedKey} (hi : PackedAt calls answers i s key) :
    I.Names hI key s := by
  obtain ⟨a, ha, hanswer⟩ := forall₂_getElem? h hi.1
  cases hi.2.symm.trans ha
  exact hanswer

/-- A key is taken apart into a state that looks like the one it stands for, with its HP. -/
theorem unpack_of_names {hI : I.Consistent H} {s : BattleState} {key : PackedKey}
    (hs : s.HasHpValues) (h : I.Names hI key s) :
    ∃ u, I.unpack key = .ok u ∧ u.solverView = s.solverView ∧ u.activeHps = s.activeHps := by
  obtain ⟨plIdx, oppIdx, hpack, hunpack⟩ := h
  obtain ⟨u, hu, hview⟩ := unpack_of_views hI hpack hunpack
  obtain ⟨plIdx', oppIdx', hpack', hpl, hopp⟩ := hs
  have hactive := activeIndices_of_view hview
  have hplHp := hp_of_visible (congrArg BattleState.side0 hview.symm) hpl
  have hoppHp := hp_of_visible (congrArg BattleState.side1 hview.symm) hopp
  refine ⟨u, hu, hview, ?_⟩
  simp only [BattleState.activeHps, hactive.1, hactive.2, hpack'.side0, hpack'.side1,
    List.map_cons, List.map_nil, hplHp, hoppHp]

theorem key_eq_iff {hI : I.Consistent H} {s t : BattleState} {key key' : PackedKey}
    (hs : s.HasHpValues) (h : I.Names hI key s) (h' : I.Names hI key' t) :
    key = key' ↔ s.solverView = t.solverView := by
  obtain ⟨plIdx, oppIdx, hpack, hunpack⟩ := h
  obtain ⟨plIdx', oppIdx', hpack', hunpack'⟩ := h'
  obtain ⟨i, j, hij, hpl, hopp⟩ := hs
  obtain rfl : i = plIdx := List.singleton_inj.1 (hij.side0.symm.trans hpack.side0)
  obtain rfl : j = oppIdx := List.singleton_inj.1 (hij.side1.symm.trans hpack.side1)
  rw [← abstractState_eq_iff hpack hpack' hpl hopp]
  constructor
  · rintro rfl
    exact Except.ok.inj (hunpack.symm.trans hunpack')
  · intro heq
    rw [← heq] at hunpack'
    exact fieldsOf_injective
      (NuzlockeSolver.ContextInterner.unpack_injective hunpack hunpack')

theorem scan_returns {exemplars : List BattleState} {masked : BattleState}
    (hmasked : masked.ImprisonedSorted) (hex : ∀ e ∈ exemplars, e.ImprisonedSorted)
    (ids : List UInt32) : ∃ found, ContextInterner.scan exemplars masked ids = some found := by
  induction ids with
  | nil => exact ⟨none, rfl⟩
  | cons id ids ih =>
    have hget : (exemplars.getD id.toNat {}).ImprisonedSorted := by
      rw [List.getD_eq_getElem?_getD]
      cases hid : exemplars[id.toNat]? with
      | none => exact ⟨rfl, rfl⟩
      | some e => exact hex e (List.mem_of_getElem? hid)
    obtain ⟨equal, hequal⟩ := BattleState.stateEqualSolver_isSome hget hmasked
    rw [ContextInterner.scan, hequal]
    cases equal with
    | true => exact ⟨some id, rfl⟩
    | false => exact ih

theorem pack_returns {s : BattleState} (hs : s.ImprisonedSorted)
    (hI : ∀ e ∈ I.exemplars, e.ImprisonedSorted) :
    ∃ r J, I.pack H s = some (r, J) ∧ ∀ e ∈ J.exemplars, e.ImprisonedSorted := by
  unfold ContextInterner.pack
  cases hread : readState s with
  | error fault => exact ⟨_, I, rfl, hI⟩
  | ok read =>
    obtain ⟨plIdx, oppIdx, -, rfl⟩ := readState_eq_ok.1 hread
    have hmasked : (s.setHps plIdx oppIdx 0 0).ImprisonedSorted := ⟨hs.side0, hs.side1⟩
    obtain ⟨found, hfound⟩ := scan_returns hmasked hI
      (I.buckets ((s.setHps plIdx oppIdx 0 0).stateHashSolver H))
    simp only [hfound]
    cases found with
    | some id => exact ⟨_, I, rfl, hI⟩
    | none =>
      by_cases hfull : uint32Max ≤ I.exemplars.length
      · exact ⟨_, I, if_pos hfull, hI⟩
      · refine ⟨_, _, if_neg hfull, fun e he => ?_⟩
        rcases List.mem_append.1 he with he | he
        · exact hI e he
        · rw [List.mem_singleton.1 he]
          exact hmasked

theorem runCalls_returns {calls : List CodecCall}
    (hcalls : ∀ s, CodecCall.pack s ∈ calls → s.ImprisonedSorted)
    (hI : ∀ e ∈ I.exemplars, e.ImprisonedSorted) :
    ∃ answers J, runCalls H I calls = some (answers, J) := by
  induction calls generalizing I with
  | nil => exact ⟨[], I, rfl⟩
  | cons c calls ih =>
    have hcall : ∃ a J, I.call H c = some (a, J) ∧ ∀ e ∈ J.exemplars, e.ImprisonedSorted := by
      cases c with
      | pack s =>
        obtain ⟨r, J, hpack, hJ⟩ := pack_returns (H := H) (hcalls s List.mem_cons_self) hI
        rw [ContextInterner.call, hpack]
        cases r with
        | ok key => exact ⟨_, J, rfl, hJ⟩
        | error fault => exact ⟨_, J, rfl, hJ⟩
      | unpack key =>
        rw [ContextInterner.call]
        cases I.unpack key with
        | ok u => exact ⟨_, I, rfl, hI⟩
        | error fault => exact ⟨_, I, rfl, hI⟩
    obtain ⟨a, J, hcall, hJ⟩ := hcall
    obtain ⟨answers, K, hrun⟩ := ih (fun s hs => hcalls s (List.mem_cons_of_mem _ hs)) hJ
    simp only [runCalls, hcall, hrun, Option.bind_eq_bind, Option.bind_some]
    exact ⟨_, K, rfl⟩

/-- The interner is a faithful, stable numbering of contexts. -/
theorem interner_faithful (H : StdHash) (calls : List CodecCall)
    (hhp : ∀ s, CodecCall.pack s ∈ calls → s.HasHpValues) :
    ((∀ s, CodecCall.pack s ∈ calls → s.ImprisonedSorted) →
      ∃ answers I, runCalls H .empty calls = some (answers, I)) ∧
    (∀ answers I, runCalls H .empty calls = some (answers, I) →
      (∀ i s, calls[i]? = some (CodecCall.pack s) →
        (∃ key, PackedAt calls answers i s key) ∨ uint32Max ≤ I.exemplars.length) ∧
      (∀ i s key, PackedAt calls answers i s key →
        ∃ u, I.unpack key = .ok u ∧ u.activeHps = s.activeHps ∧
          ∀ equal, u.stateEqualSolver s = some equal → equal = true) ∧
      (∀ i j s t key key', PackedAt calls answers i s key → PackedAt calls answers j t key' →
        ∀ equal, s.stateEqualSolver t = some equal → (key = key' ↔ equal = true)) ∧
      (∀ more answers' J, runCalls H I more = some (answers', J) →
        ∀ key u, I.unpack key = .ok u → J.unpack key = .ok u) ∧
      I.exemplars.Pairwise fun e e' => e.stateEqualSolver e' ≠ some true) ∧
    (∀ s t : BattleState, s.stateEqualSolver t = some true →
      s.stateHashSolver H = t.stateHashSolver H) ∧
    (∀ s t : BattleState, s.ImprisonedSorted → t.ImprisonedSorted →
      ∃ equal, s.stateEqualSolver t = some equal) := by
  refine ⟨fun hsorted => runCalls_returns hsorted fun e he => absurd he List.not_mem_nil, ?_,
    fun s t => stateHashSolver_congr H, fun s t => BattleState.stateEqualSolver_isSome⟩
  intro answers I hrun
  obtain ⟨-, hI, hanswers⟩ := runCalls_spec consistent_empty hrun
  have hmem : ∀ {i s}, calls[i]? = some (CodecCall.pack s) → s.HasHpValues :=
    fun h => hhp _ (List.mem_of_getElem? h)
  refine ⟨fun i s hi => ?_, fun i s key hi => ?_, fun i j s t key key' hi hj equal hequal => ?_,
    fun more answers' J hmore key u hu => ?_, ?_⟩
  · obtain ⟨a, ha, hanswer⟩ := forall₂_getElem? hanswers hi
    cases a with
    | key key => exact .inl ⟨key, hi, ha⟩
    | state u => exact hanswer.elim
    | thrown fault => exact hanswer.imp (fun hno => (hno (hmem hi)).elim) id
  · obtain ⟨u, hu, hview, hps⟩ := unpack_of_names (hmem hi.1) (names_of_packedAt hanswers hi)
    exact ⟨u, hu, hps, fun equal hequal => (BattleState.stateEqualSolver_iff hequal).2 hview⟩
  · rw [BattleState.stateEqualSolver_iff hequal]
    exact key_eq_iff (hmem hi.1) (names_of_packedAt hanswers hi) (names_of_packedAt hanswers hj)
  · exact unpack_of_extends (runCalls_spec hI hmore).1 hu
  · refine (List.pairwise_map.1 hI.distinct).imp fun hne hequal => ?_
    exact hne ((BattleState.stateEqualSolver_iff hequal).1 rfl)

def bitsHash : StdHash where
  int32 n := n.toUInt32.toUInt64
  int8 n := n.toUInt8.toUInt64
  bool b := if b then 1 else 0
  double q := UInt64.ofNat q.num.toNat

def duelSide (hp : Int32) : SideState where
  team := ⟨[{ species := 1, hasMaxHp := true, maxHp := 40, hasHp := true, hp := hp }],
    by simp only [List.length_cons, List.length_nil]; decide⟩
  activeIndices := firstActive

def duel (plHp oppHp : Int32) : BattleState where
  side0 := duelSide plHp
  side1 := duelSide oppHp

def duelCalls : List CodecCall := [.pack (duel 30 20), .pack (duel 12 20)]

def duelAnswers : List CodecAnswer :=
  [.key (makePackedKey 0 30 20), .key (makePackedKey 0 12 20)]

def CodecAnswer.key? : CodecAnswer → Option PackedKey
  | .key k => some k
  | _ => none

theorem answers_of_keys {answers : List CodecAnswer} {k k' : PackedKey}
    (h : answers.map CodecAnswer.key? = [some k, some k']) : answers = [.key k, .key k'] := by
  obtain ⟨a, l, rfl, ha, hl⟩ := List.map_eq_cons_iff.1 h
  obtain ⟨b, l, rfl, hb, hl⟩ := List.map_eq_cons_iff.1 hl
  obtain rfl := List.map_eq_nil_iff.1 hl
  cases a <;> cases b <;> simp_all [CodecAnswer.key?]

theorem duel_keys : (runCalls bitsHash .empty duelCalls).map (fun r => r.1.map CodecAnswer.key?) =
    some [some (makePackedKey 0 30 20), some (makePackedKey 0 12 20)] := by
  decide +kernel

theorem duel_packed : ∃ answers I, runCalls bitsHash .empty duelCalls = some (answers, I) ∧
    PackedAt duelCalls answers 0 (duel 30 20) (makePackedKey 0 30 20) ∧
    PackedAt duelCalls answers 1 (duel 12 20) (makePackedKey 0 12 20) ∧
    (∃ u, I.unpack (makePackedKey 0 30 20) = .ok u ∧ u.activeHps = ([30], [20])) ∧
    ∀ equal, (duel 30 20).stateEqualSolver (duel 12 20) = some equal → equal = false := by
  have hps : ∀ s, CodecCall.pack s ∈ duelCalls → s.HasHpValues := by
    intro s hs
    rcases List.mem_pair.1 hs with hs | hs
    · cases hs
      exact ⟨0, 0, ⟨rfl, rfl, by decide, by decide⟩, rfl, rfl⟩
    · cases hs
      exact ⟨0, 0, ⟨rfl, rfl, by decide, by decide⟩, rfl, rfl⟩
  have hsorted : ∀ s, CodecCall.pack s ∈ duelCalls → s.ImprisonedSorted := by
    intro s hs
    rcases List.mem_pair.1 hs with hs | hs
    · cases hs
      exact ⟨rfl, rfl⟩
    · cases hs
      exact ⟨rfl, rfl⟩
  obtain ⟨hreturns, hruns, -⟩ := interner_faithful bitsHash duelCalls hps
  obtain ⟨answers, I, hrun⟩ := hreturns hsorted
  obtain ⟨-, hunpack, hkeys, -⟩ := hruns answers I hrun
  have hanswers := duel_keys
  rw [hrun] at hanswers
  obtain rfl : answers = duelAnswers := answers_of_keys (Option.some.inj hanswers)
  have h0 : PackedAt duelCalls duelAnswers 0 (duel 30 20) (makePackedKey 0 30 20) := ⟨rfl, rfl⟩
  have h1 : PackedAt duelCalls duelAnswers 1 (duel 12 20) (makePackedKey 0 12 20) := ⟨rfl, rfl⟩
  obtain ⟨u, hu, hactive, -⟩ := hunpack 0 _ _ h0
  refine ⟨_, I, hrun, h0, h1, ⟨u, hu, hactive⟩, fun equal hequal => ?_⟩
  have hne : makePackedKey 0 30 20 ≠ makePackedKey 0 12 20 := by decide
  have hiff := hkeys 0 1 _ _ _ _ h0 h1 equal hequal
  exact Bool.eq_false_iff.2 fun htrue => hne (hiff.2 htrue)

end Runs

end Engine

end NuzlockeSolver
