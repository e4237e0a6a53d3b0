import NuzlockeSolver.Basic
import NuzlockeSolver.Question
import Mathlib.Data.List.Infix
import Mathlib.Data.List.Nodup
import Mathlib.Tactic.Common

/-!
# Packed state keys

A battle state is its context, everything but the HP of the two actives, together with these two
numbers. States that the solver identifies have the same context. The interner numbers contexts
in the order in which it first meets them.
-/

namespace NuzlockeSolver

structure BattleState (Ctx : Type) where
  ctx : Ctx
  playerHp : Int
  oppHp : Int
deriving DecidableEq, Repr

structure PackedKey where
  ctx : UInt32
  plHp : UInt16
  oppHp : UInt16
deriving DecidableEq, Repr

def makePackedKey (ctxId : UInt32) (plHp oppHp : Int) : PackedKey :=
  ⟨ctxId, UInt16.ofNat plHp.toNat, UInt16.ofNat oppHp.toNat⟩

def uint32Max : Nat := 4294967295

theorem one_le_uint32Max : 1 ≤ uint32Max := by decide

/-- The masked exemplars, in the order of their ids. -/
structure ContextInterner (Ctx : Type) where
  exemplars : List Ctx
  nodup : exemplars.Nodup
  bounded : exemplars.length ≤ uint32Max

namespace ContextInterner

variable {Ctx : Type}

def empty : ContextInterner Ctx := ⟨[], List.nodup_nil, Nat.zero_le _⟩

/-- The contexts of one interner are the first contexts of a later one. -/
def Extends (I J : ContextInterner Ctx) : Prop := I.exemplars <+: J.exemplars

theorem Extends.refl (I : ContextInterner Ctx) : I.Extends I := List.prefix_rfl

theorem Extends.trans {I J K : ContextInterner Ctx} (h : I.Extends J) (h' : J.Extends K) :
    I.Extends K :=
  List.IsPrefix.trans h h'

def unpack (I : ContextInterner Ctx) (key : PackedKey) : Except Fault (BattleState Ctx) :=
  match I.exemplars[key.ctx.toNat]? with
  | none => .error (.runtimeError "state_codec: ctx_id out of range in unpack")
  | some ctx => .ok ⟨ctx, (key.plHp.toNat : Int), (key.oppHp.toNat : Int)⟩

def FitsHp (h : Int) : Prop := 0 ≤ h ∧ h ≤ 0xFFFF

instance (h : Int) : Decidable (FitsHp h) := inferInstanceAs (Decidable (_ ∧ _))

section Pack

variable [DecidableEq Ctx]

def pack (I : ContextInterner Ctx) (s : BattleState Ctx) :
    Except Fault (PackedKey × ContextInterner Ctx) :=
  if ¬ FitsHp s.playerHp then
    .error (.runtimeError "state_codec: player active HP does not fit 16 bits")
  else if ¬ FitsHp s.oppHp then
    .error (.runtimeError "state_codec: opponent active HP does not fit 16 bits")
  else if hmem : s.ctx ∈ I.exemplars then
    .ok (makePackedKey (UInt32.ofNat (I.exemplars.idxOf s.ctx)) s.playerHp s.oppHp, I)
  else if hfull : uint32Max ≤ I.exemplars.length then
    .error (.runtimeError "state_codec: context id overflow (> 2^32 contexts)")
  else
    .ok (makePackedKey (UInt32.ofNat I.exemplars.length) s.playerHp s.oppHp,
      { exemplars := I.exemplars ++ [s.ctx]
        nodup := List.nodup_append.2 ⟨I.nodup, List.nodup_singleton _, by
          rintro a ha b hb rfl
          exact hmem (List.mem_singleton.1 hb ▸ ha)⟩
        bounded := by
          rw [List.length_append, List.length_singleton]
          omega })

variable {I J : ContextInterner Ctx} {s : BattleState Ctx} {key : PackedKey}

theorem toNat_ofNat_of_lt {n : Nat} (h : n ≤ uint32Max) : (UInt32.ofNat n).toNat = n := by
  refine UInt32.toNat_ofNat_of_lt' (lt_of_le_of_lt h ?_)
  decide

/-- Packing only adds contexts, and the id it returns is the id of the state's context. -/
theorem pack_spec (h : I.pack s = .ok (key, J)) :
    I.Extends J ∧ J.exemplars[key.ctx.toNat]? = some s.ctx ∧ FitsHp s.playerHp ∧
      FitsHp s.oppHp := by
  unfold pack at h
  split at h
  · cases h
  rename_i hpl
  split at h
  · cases h
  rename_i hopp
  have hfit := And.intro (not_not.1 hpl) (not_not.1 hopp)
  split at h
  · rename_i hmem
    cases h
    have hlt := List.idxOf_lt_length_iff.2 hmem
    refine ⟨.refl I, ?_, hfit⟩
    rw [makePackedKey, toNat_ofNat_of_lt (hlt.le.trans I.bounded), List.getElem?_eq_getElem hlt,
      List.getElem_idxOf hlt]
  · split at h
    · cases h
    · cases h
      refine ⟨List.prefix_append _ _, ?_, hfit⟩
      rw [makePackedKey, toNat_ofNat_of_lt I.bounded]
      simp

end Pack

variable {I J : ContextInterner Ctx}

theorem Extends.getElem? (h : I.Extends J) {id : Nat} {ctx : Ctx}
    (hid : I.exemplars[id]? = some ctx) : J.exemplars[id]? = some ctx := by
  obtain ⟨rest, hrest⟩ := h
  rw [← hrest, List.getElem?_append_left (List.getElem?_eq_some_iff.1 hid).1, hid]

theorem id_unique {id id' : Nat} {ctx : Ctx} (h : I.exemplars[id]? = some ctx)
    (h' : I.exemplars[id']? = some ctx) : id = id' := by
  have hlt := (List.getElem?_eq_some_iff.1 h).1
  exact (List.getElem?_inj hlt I.nodup).1 (h.trans h'.symm)

theorem unpack_makePackedKey {id : UInt32} {ctx : Ctx} {p o : Int}
    (h : I.exemplars[id.toNat]? = some ctx) (hp : FitsHp p) (ho : FitsHp o) :
    I.unpack (makePackedKey id p o) = .ok ⟨ctx, p, o⟩ := by
  have hcast : ∀ {x : Int}, FitsHp x → ((UInt16.ofNat x.toNat).toNat : Int) = x := by
    intro x hx
    have hlt : x.toNat < 2 ^ 16 := by
      have := hx.1
      have := hx.2
      omega
    rw [UInt16.toNat_ofNat_of_lt' hlt, Int.toNat_of_nonneg hx.1]
  rw [unpack, makePackedKey, h]
  simp only [hcast hp, hcast ho]

theorem unpack_eq_ok {key : PackedKey} {s : BattleState Ctx} :
    I.unpack key = .ok s ↔ I.exemplars[key.ctx.toNat]? = some s.ctx ∧
      (key.plHp.toNat : Int) = s.playerHp ∧ (key.oppHp.toNat : Int) = s.oppHp := by
  obtain ⟨ctx, p, o⟩ := s
  unfold unpack
  split
  · rename_i hnone
    simp [hnone]
  · rename_i ctx' hsome
    simp [hsome]

theorem Extends.unpack (h : I.Extends J) {key : PackedKey} {s : BattleState Ctx}
    (hs : I.unpack key = .ok s) : J.unpack key = .ok s := by
  obtain ⟨hctx, hp, ho⟩ := unpack_eq_ok.1 hs
  exact unpack_eq_ok.2 ⟨h.getElem? hctx, hp, ho⟩

theorem unpack_injective {key key' : PackedKey} {s : BattleState Ctx}
    (h : I.unpack key = .ok s) (h' : I.unpack key' = .ok s) : key = key' := by
  obtain ⟨hctx, hp, ho⟩ := unpack_eq_ok.1 h
  obtain ⟨hctx', hp', ho'⟩ := unpack_eq_ok.1 h'
  have hid : key.ctx = key'.ctx := UInt32.toNat_inj.1 (id_unique hctx hctx')
  have hpl : key.plHp = key'.plHp := UInt16.toNat_inj.1 (by omega)
  have hopp : key.oppHp = key'.oppHp := UInt16.toNat_inj.1 (by omega)
  cases key
  cases key'
  rw [PackedKey.mk.injEq]
  exact ⟨hid, hpl, hopp⟩

theorem unpack_pack [DecidableEq Ctx] {key : PackedKey} {s : BattleState Ctx}
    (h : I.pack s = .ok (key, J)) : J.unpack key = .ok s := by
  obtain ⟨-, hctx, hp, ho⟩ := pack_spec h
  have hkey : key = makePackedKey key.ctx s.playerHp s.oppHp := by
    unfold pack at h
    split_ifs at h
    · cases h
      rfl
    · cases h
      rfl
  rw [hkey]
  exact unpack_makePackedKey hctx hp ho

section PackCases

variable [DecidableEq Ctx] {s : BattleState Ctx} (hp : FitsHp s.playerHp) (ho : FitsHp s.oppHp)

include hp ho

theorem pack_of_context {id : UInt32} (hid : I.exemplars[id.toNat]? = some s.ctx) :
    I.pack s = .ok (makePackedKey id s.playerHp s.oppHp, I) := by
  have hmem : s.ctx ∈ I.exemplars := List.mem_of_getElem? hid
  have hlt := List.idxOf_lt_length_iff.2 hmem
  have hidx : I.exemplars.idxOf s.ctx = id.toNat :=
    id_unique (by rw [List.getElem?_eq_getElem hlt, List.getElem_idxOf hlt]) hid
  rw [pack, if_neg (not_not.2 hp), if_neg (not_not.2 ho), dif_pos hmem, hidx, UInt32.ofNat_toNat]

theorem pack_of_new (hnew : s.ctx ∉ I.exemplars) (hroom : I.exemplars.length < uint32Max)
    (hJ : J.exemplars = I.exemplars ++ [s.ctx]) :
    I.pack s = .ok (makePackedKey (UInt32.ofNat I.exemplars.length) s.playerHp s.oppHp, J) := by
  rw [pack, if_neg (not_not.2 hp), if_neg (not_not.2 ho), dif_neg hnew, dif_neg (not_le.2 hroom)]
  cases J
  cases hJ
  rfl

end PackCases

end ContextInterner

end NuzlockeSolver
