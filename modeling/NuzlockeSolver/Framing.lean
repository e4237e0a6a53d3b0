import Mathlib.Data.List.Infix

/-!
# Framed streams

A frame is a message with a delimiter behind it. The first symbol of the delimiter does not come
back in it, so occurrences of the delimiter never overlap, and a stream of frames can be read in one
way only, in whatever pieces it arrives.
-/

namespace NuzlockeSolver

variable {β : Type}

structure Delimiter (β : Type) where
  first : β
  rest : List β
  notMem : first ∉ rest

namespace Delimiter

variable (D : Delimiter β)

def word : List β := D.first :: D.rest

/-- A text in which the delimiter does not occur. -/
def Clean (m : List β) : Prop := ¬ D.word <:+: m

instance decidableClean [DecidableEq β] (m : List β) : Decidable (D.Clean m) :=
  inferInstanceAs (Decidable (¬ _))

def cut [DecidableEq β] : List β → Option (List β × List β)
  | [] => none
  | b :: bs =>
    if D.word <+: b :: bs then some ([], bs.drop D.rest.length)
    else (cut bs).map fun r => (b :: r.1, r.2)

def frames (ms : List (List β)) : List β := ms.flatMap (· ++ D.word)

variable {D}

theorem Clean.of_infix {m m' : List β} (h : D.Clean m) (hsub : m' <:+: m) : D.Clean m' :=
  fun hword => h (hword.trans hsub)

theorem clean_of_notMem {m : List β} (h : D.first ∉ m) : D.Clean m :=
  fun hword => h (hword.subset List.mem_cons_self)

theorem clean_nil : D.Clean [] :=
  clean_of_notMem List.not_mem_nil

theorem Clean.cons {b : β} {m : List β} (h : D.Clean m) (hb : ¬ D.word <+: b :: m) :
    D.Clean (b :: m) := by
  intro hword
  obtain hprefix | hrest := List.infix_cons_iff.1 hword
  · exact hb hprefix
  · exact h hrest

theorem word_prefix_of_append {x s : List β} (hx : x ≠ []) (h : D.word <+: x ++ (D.word ++ s)) :
    D.word <+: x := by
  obtain hle | hlt := le_or_gt D.word.length x.length
  · exact List.prefix_of_prefix_length_le h (List.prefix_append _ _) hle
  obtain ⟨t, ht⟩ := List.prefix_of_prefix_length_le (List.prefix_append x _) h hlt.le
  have htail : t <+: D.word ++ s := by
    rw [← ht] at h
    exact (List.prefix_append_right_inj x).1 (ht ▸ h)
  obtain ⟨b, x, rfl⟩ := List.exists_cons_of_ne_nil hx
  -- what stands behind the text would bring the first symbol back
  cases t with
  | nil =>
    rw [← ht, List.append_nil] at hlt
    exact absurd hlt (lt_irrefl _)
  | cons c t =>
    obtain ⟨rfl, hrest⟩ : b = D.first ∧ x ++ c :: t = D.rest := List.cons.inj ht
    obtain ⟨rfl, -⟩ := List.cons_prefix_cons.1 htail
    exact absurd (hrest ▸ List.mem_append_right x List.mem_cons_self) D.notMem

theorem cut_append [DecidableEq β] {m : List β} (h : D.Clean m) (s : List β) :
    D.cut (m ++ (D.word ++ s)) = some (m, s) := by
  induction m with
  | nil =>
    have hword : D.word <+: D.first :: (D.rest ++ s) := List.prefix_append D.word s
    change D.cut (D.first :: (D.rest ++ s)) = some ([], s)
    rw [cut, if_pos hword, List.drop_left]
  | cons b m ih =>
    have hfirst : ¬ D.word <+: b :: m ++ (D.word ++ s) := fun hword =>
      h (word_prefix_of_append (List.cons_ne_nil b m) hword).isInfix
    rw [List.cons_append] at hfirst ⊢
    rw [cut, if_neg hfirst, ih (h.of_infix (List.suffix_cons b m).isInfix), Option.map_some]

theorem clean_of_cut [DecidableEq β] {s : List β} (h : D.cut s = none) : D.Clean s := by
  induction s with
  | nil => exact clean_nil
  | cons b s ih =>
    rw [cut] at h
    split at h
    · cases h
    · rename_i hb
      exact (ih (Option.map_eq_none_iff.1 h)).cons hb

theorem eq_of_cut [DecidableEq β] {s m r : List β} (h : D.cut s = some (m, r)) :
    D.Clean m ∧ s = m ++ (D.word ++ r) := by
  induction s generalizing m with
  | nil => cases h
  | cons b s ih =>
    rw [cut] at h
    split at h
    · rename_i hb
      obtain ⟨t, ht⟩ := hb
      obtain ⟨rfl, rfl⟩ := Prod.mk.inj (Option.some.inj h)
      obtain ⟨rfl, rfl⟩ : D.first = b ∧ D.rest ++ t = s := List.cons.inj ht
      exact ⟨clean_nil, by simp [word]⟩
    · rename_i hb
      obtain ⟨r', hcut, hr⟩ := Option.map_eq_some_iff.1 h
      obtain ⟨rfl, rfl⟩ := Prod.mk.inj hr
      obtain ⟨hclean, hs⟩ := ih hcut
      refine ⟨hclean.cons fun hword => hb ?_, by rw [hs, List.cons_append]⟩
      rw [hs, ← List.cons_append]
      exact hword.trans (List.prefix_append _ _)

theorem cut_eq_none [DecidableEq β] {s : List β} : D.cut s = none ↔ D.Clean s := by
  refine ⟨clean_of_cut, fun h => ?_⟩
  cases hcut : D.cut s with
  | none => rfl
  | some r =>
    obtain ⟨-, rfl⟩ := eq_of_cut (m := r.1) (r := r.2) hcut
    exact absurd
      ((List.prefix_append D.word r.2).isInfix.trans (List.suffix_append r.1 _).isInfix) h

theorem frame_inj {m m' r r' : List β} (h : D.Clean m) (h' : D.Clean m')
    (heq : m ++ (D.word ++ r) = m' ++ (D.word ++ r')) : m = m' ∧ r = r' := by
  classical
  have hcut := cut_append h r
  rw [heq, cut_append h' r'] at hcut
  exact (Prod.mk.inj (Option.some.inj hcut)).imp Eq.symm Eq.symm

/-- A piece with the end of a frame in it holds the first message, and the rest of the piece is what
has been read too far. -/
theorem cut_piece [DecidableEq β] {p q m s : List β} (h : D.Clean m)
    (hpiece : p ++ q = m ++ (D.word ++ s)) {r : List β × List β} (hcut : D.cut p = some r) :
    r.1 = m ∧ r.2 ++ q = s := by
  obtain ⟨hclean, rfl⟩ := eq_of_cut (m := r.1) (r := r.2) hcut
  rw [List.append_assoc, List.append_assoc] at hpiece
  exact frame_inj hclean h hpiece

structure Splits (D : Delimiter β) (s : List β) (ms : List (List β)) (r : List β) : Prop where
  eq : s = D.frames ms ++ r
  messages : ∀ m ∈ ms, D.Clean m
  rest : D.Clean r

@[simp] theorem frames_nil : D.frames [] = [] := rfl

theorem frames_cons (m : List β) (ms : List (List β)) :
    D.frames (m :: ms) = m ++ (D.word ++ D.frames ms) := by
  rw [frames, List.flatMap_cons, List.append_assoc]
  rfl

theorem frames_append (ms ms' : List (List β)) :
    D.frames (ms ++ ms') = D.frames ms ++ D.frames ms' :=
  List.flatMap_append

theorem Splits.nil : D.Splits [] [] [] :=
  ⟨rfl, fun _ h => absurd h List.not_mem_nil, clean_nil⟩

theorem Splits.cons {s r m : List β} {ms : List (List β)} (h : D.Splits s ms r) (hm : D.Clean m) :
    D.Splits (m ++ (D.word ++ s)) (m :: ms) r where
  eq := by rw [frames_cons, h.eq, List.append_assoc, List.append_assoc]
  messages := List.forall_mem_cons.2 ⟨hm, h.messages⟩
  rest := h.rest

theorem Splits.cut_nil [DecidableEq β] {s r : List β} (h : D.Splits s [] r) : D.cut s = none := by
  rw [h.eq, frames_nil, List.nil_append]
  exact cut_eq_none.2 h.rest

theorem Splits.cut_cons [DecidableEq β] {s m r : List β} {ms : List (List β)}
    (h : D.Splits s (m :: ms) r) : D.cut s = some (m, D.frames ms ++ r) := by
  rw [h.eq, frames_cons, List.append_assoc, List.append_assoc]
  exact cut_append (h.messages m List.mem_cons_self) _

theorem Splits.tail {s m r : List β} {ms : List (List β)} (h : D.Splits s (m :: ms) r) :
    D.Splits (D.frames ms ++ r) ms r :=
  ⟨rfl, fun m' hm => h.messages m' (List.mem_cons_of_mem m hm), h.rest⟩

theorem Splits.length_le {s r : List β} {ms : List (List β)} (h : D.Splits s ms r) :
    ms.length ≤ s.length := by
  induction ms generalizing s with
  | nil => exact Nat.zero_le _
  | cons m ms ih =>
    have htail := ih h.tail
    rw [h.eq, frames_cons]
    simp only [List.length_append, List.length_cons, word] at htail ⊢
    omega

theorem Splits.unique {s r r' : List β} {ms ms' : List (List β)} (h : D.Splits s ms r)
    (h' : D.Splits s ms' r') : ms = ms' ∧ r = r' := by
  classical
  induction ms generalizing s ms' with
  | nil =>
    cases ms' with
    | nil => exact ⟨rfl, h.eq.symm.trans h'.eq⟩
    | cons m ms' => cases h.cut_nil.symm.trans h'.cut_cons
  | cons m ms ih =>
    cases ms' with
    | nil => cases h'.cut_nil.symm.trans h.cut_cons
    | cons m' ms' =>
      have hcut := h.cut_cons.symm.trans h'.cut_cons
      obtain ⟨rfl, hrest⟩ := Prod.mk.inj (Option.some.inj hcut)
      obtain ⟨rfl, rfl⟩ := ih h.tail (hrest ▸ h'.tail)
      exact ⟨rfl, rfl⟩

theorem Splits.append {s t r r' : List β} {ms ms' : List (List β)} (h : D.Splits s ms r)
    (h' : D.Splits (r ++ t) ms' r') : D.Splits (s ++ t) (ms ++ ms') r' where
  eq := by rw [h.eq, List.append_assoc, h'.eq, frames_append, List.append_assoc]
  messages m hm := (List.mem_append.1 hm).elim (h.messages m) (h'.messages m)
  rest := h'.rest

/-- A piece of a stream of frames holds the first of its messages and the beginning of the rest. -/
theorem splits_of_piece {p q : List β} {ms : List (List β)} (h : ∀ m ∈ ms, D.Clean m)
    (hpiece : p ++ q = D.frames ms) :
    ∃ done rest r, ms = done ++ rest ∧ D.Splits p done r ∧ r ++ q = D.frames rest := by
  classical
  induction ms generalizing p with
  | nil =>
    obtain ⟨rfl, rfl⟩ := List.append_eq_nil_iff.1 hpiece
    exact ⟨[], [], [], rfl, .nil, rfl⟩
  | cons m ms ih =>
    rw [frames_cons] at hpiece
    cases hcut : D.cut p with
    | none => exact ⟨[], m :: ms, p, rfl, ⟨rfl, by simp, cut_eq_none.1 hcut⟩, by
        rw [hpiece, frames_cons]⟩
    | some r =>
      have hm := h m List.mem_cons_self
      obtain ⟨rfl, hrest⟩ := cut_piece hm hpiece hcut
      obtain ⟨-, rfl⟩ := eq_of_cut (m := r.1) (r := r.2) hcut
      obtain ⟨done, rest, r', rfl, hsplits, hframes⟩ :=
        ih (fun m' hm' => h m' (List.mem_cons_of_mem _ hm')) hrest
      exact ⟨r.1 :: done, rest, r', rfl, hsplits.cons hm, hframes⟩

end Delimiter

end NuzlockeSolver
