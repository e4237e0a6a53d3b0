import Mathlib.Data.List.Induction
import Mathlib.Logic.Function.Basic

/-!
# Numbered logs

Each entry of a log has a key, and the number of earlier entries with its key. Key and number pick
out the entry, so the log can be read back in any order that keeps the order within each key.
-/

namespace NuzlockeSolver

variable {α κ β : Type} [DecidableEq κ]

def under (key : α → κ) (k : κ) (l : List α) : List α := l.filter fun a => key a = k

def Numbered (key : α → κ) (number : α → Int) (l : List α) : Prop :=
  ∀ p a q, l = p ++ a :: q → number a = (under key (key a) p).length

theorem under_append (key : α → κ) (k : κ) (l m : List α) :
    under key k (l ++ m) = under key k l ++ under key k m :=
  List.filter_append l m

theorem under_concat_self (key : α → κ) (l : List α) (a : α) :
    under key (key a) (l ++ [a]) = under key (key a) l ++ [a] := by
  rw [under_append]
  simp [under]

theorem under_concat_ne {key : α → κ} {k : κ} {a : α} (h : key a ≠ k) (l : List α) :
    under key k (l ++ [a]) = under key k l := by
  rw [under_append]
  simp [under, h]

theorem length_under (key : α → κ) (k : κ) (l : List α) :
    (under key k l).length = (l.map key).count k := by
  rw [under, ← List.countP_eq_length_filter, List.count_eq_countP, List.countP_map]
  exact List.countP_congr fun a _ => by simp

section Numbered

variable {key : α → κ} {number : α → Int} {l m : List α} {a b : α} {k : κ}

theorem numbered_nil : Numbered key number [] := by
  intro p a q h
  simp at h

theorem Numbered.of_append (h : Numbered key number (l ++ m)) : Numbered key number l := by
  intro p a q hl
  refine h p a (q ++ m) ?_
  rw [hl, List.append_assoc, List.cons_append]

theorem numbered_concat : Numbered key number (l ++ [a]) ↔
    Numbered key number l ∧ number a = (under key (key a) l).length := by
  constructor
  · intro h
    exact ⟨h.of_append, h l a [] rfl⟩
  · intro ⟨hl, ha⟩ p b q h
    cases q using List.reverseRecOn with
    | nil =>
      obtain ⟨rfl, h⟩ := List.append_inj' h rfl
      obtain rfl : a = b := by simpa using h
      exact ha
    | append_singleton q c =>
      rw [← List.cons_append, ← List.append_assoc] at h
      exact hl p b q (List.append_inj' h rfl).1

theorem Numbered.getElem?_under (h : Numbered key number l) (n : Nat) :
    (under key k l)[n]? = some a ↔ a ∈ l ∧ key a = k ∧ number a = n := by
  induction l using List.reverseRecOn with
  | nil => simp [under]
  | append_singleton l b ih =>
    obtain ⟨hl, hb⟩ := numbered_concat.1 h
    have ih := ih hl
    by_cases hk : key b = k
    · subst hk
      rw [under_concat_self]
      constructor
      · intro ha
        by_cases hn : n < (under key (key b) l).length
        · rw [List.getElem?_append_left hn] at ha
          obtain ⟨hmem, hkey, hnum⟩ := ih.1 ha
          exact ⟨List.mem_append_left _ hmem, hkey, hnum⟩
        · rw [List.getElem?_append_right (Nat.le_of_not_lt hn), List.getElem?_singleton] at ha
          split at ha
          · obtain rfl := Option.some.inj ha
            exact ⟨by simp, rfl, by rw [hb]; omega⟩
          · cases ha
      · intro ⟨hmem, hkey, hnum⟩
        rcases List.mem_append.1 hmem with hmem | hmem
        · have ha := ih.2 ⟨hmem, hkey, hnum⟩
          rw [List.getElem?_append_left (List.getElem?_eq_some_iff.1 ha).1]
          exact ha
        · obtain rfl := List.mem_singleton.1 hmem
          have hn : n = (under key (key a) l).length := by
            have := hnum.symm.trans hb
            omega
          simp [hn]
    · rw [under_concat_ne hk, ih]
      constructor
      · intro ⟨hmem, hkey, hnum⟩
        exact ⟨List.mem_append_left _ hmem, hkey, hnum⟩
      · intro ⟨hmem, hkey, hnum⟩
        rcases List.mem_append.1 hmem with hmem | hmem
        · exact ⟨hmem, hkey, hnum⟩
        · obtain rfl := List.mem_singleton.1 hmem
          exact absurd hkey hk

theorem Numbered.exists_number (h : Numbered key number l) (ha : a ∈ l) :
    ∃ n : Nat, number a = n ∧ (under key (key a) l)[n]? = some a := by
  obtain ⟨p, q, rfl⟩ := List.append_of_mem ha
  exact ⟨_, h p a q rfl, (h.getElem?_under _).2 ⟨ha, rfl, h p a q rfl⟩⟩

end Numbered

/-- What was read for a key. -/
def readFor (k : κ) (asked : List (κ × β)) : List β := (under Prod.fst k asked).map Prod.snd

theorem readFor_cons (k : κ) (e : κ × β) (asked : List (κ × β)) :
    readFor k (e :: asked) = if e.1 = k then e.2 :: readFor k asked else readFor k asked := by
  unfold readFor under
  by_cases h : e.1 = k <;> simp [h]

def ReadsAll (shelf : κ → List β) (taken : κ → Nat) (asked : List (κ × β)) : Prop :=
  ∀ k, readFor k asked = (shelf k).drop (taken k)

theorem readsAll_nil {shelf : κ → List β} {taken : κ → Nat} :
    ReadsAll shelf taken [] ↔ ∀ k, (shelf k).length ≤ taken k := by
  unfold ReadsAll
  refine forall_congr' fun k => ?_
  rw [← List.drop_eq_nil_iff]
  exact eq_comm

theorem readsAll_cons {shelf : κ → List β} {taken : κ → Nat} {k : κ} {v : β}
    {asked : List (κ × β)} : ReadsAll shelf taken ((k, v) :: asked) ↔
      (shelf k)[taken k]? = some v ∧
        ReadsAll shelf (Function.update taken k (taken k + 1)) asked := by
  constructor
  · intro h
    have hk := h k
    rw [readFor_cons, if_pos rfl] at hk
    have hlt : taken k < (shelf k).length := by
      by_contra hge
      rw [List.drop_eq_nil_of_le (Nat.le_of_not_lt hge)] at hk
      cases hk
    rw [List.drop_eq_getElem_cons hlt] at hk
    obtain ⟨hv, hrest⟩ := List.cons.inj hk
    refine ⟨(List.getElem?_eq_getElem hlt).trans (congrArg some hv.symm), fun k' => ?_⟩
    by_cases hk' : k' = k
    · subst hk'
      rw [Function.update_self]
      exact hrest
    · have h := h k'
      rw [readFor_cons, if_neg (Ne.symm hk')] at h
      rw [Function.update_of_ne hk']
      exact h
  · intro ⟨hv, hrest⟩ k'
    have h := hrest k'
    rw [readFor_cons]
    by_cases hk : k = k'
    · subst hk
      obtain ⟨hlt, hv⟩ := List.getElem?_eq_some_iff.1 hv
      rw [Function.update_self] at h
      rw [if_pos rfl, List.drop_eq_getElem_cons hlt, h, hv]
    · rw [Function.update_of_ne (Ne.symm hk)] at h
      rw [if_neg hk]
      exact h

end NuzlockeSolver
