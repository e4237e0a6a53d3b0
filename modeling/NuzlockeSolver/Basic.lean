import Mathlib.Data.List.Forall2
import Mathlib.Logic.Function.Basic

/-!
# Computations that may raise, association lists, and texts

The engine's maps are association lists whose newest binding is in front; its exceptions are
`Except`. The lemmas here take a successful run apart, read an updated map and strip a text.
-/

namespace NuzlockeSolver

universe u

theorem bind_eq_ok {ε : Type*} {α β : Type u} {x : Except ε α} {f : α → Except ε β} {b : β} :
    x >>= f = .ok b ↔ ∃ a, x = .ok a ∧ f a = .ok b := by
  cases x with
  | error e => simp [bind, Except.bind]
  | ok a => simp [bind, Except.bind]

@[simp] theorem ok_bind {ε : Type*} {α β : Type u} (a : α) (f : α → Except ε β) :
    (Except.ok a >>= f) = f a :=
  rfl

theorem bind_congr_ok {ε : Type*} {α β : Type u} {x : Except ε α} {f g : α → Except ε β}
    (h : ∀ a, x = .ok a → f a = g a) : x >>= f = x >>= g := by
  cases x with
  | error e => simp [bind, Except.bind]
  | ok a => exact h a rfl

theorem map_eq_ok {ε α β : Type*} {x : Except ε α} {f : α → β} {b : β} :
    x.map f = .ok b ↔ ∃ a, x = .ok a ∧ f a = b := by
  cases x with
  | error e => simp [Except.map]
  | ok a => simp [Except.map]

theorem mapM_except_spec {ε α β : Type} {f : α → Except ε β} {l : List α} {bs : List β}
    (h : l.mapM f = .ok bs) : List.Forall₂ (fun a b => f a = .ok b) l bs := by
  induction l generalizing bs with
  | nil =>
    cases h
    exact .nil
  | cons a l ih =>
    rw [List.mapM_cons] at h
    obtain ⟨b, hb, h⟩ := bind_eq_ok.1 h
    obtain ⟨bs', hbs, h⟩ := bind_eq_ok.1 h
    cases h
    exact .cons hb (ih hbs)

theorem mem_of_forall₂ {α β : Type*} {R : α → β → Prop} {l : List α} {bs : List β}
    (h : List.Forall₂ R l bs) {b : β} (hb : b ∈ bs) : ∃ a ∈ l, R a b := by
  induction h with
  | nil => simp at hb
  | cons hab _ ih =>
    rcases List.mem_cons.1 hb with rfl | hb
    · exact ⟨_, List.mem_cons_self, hab⟩
    · obtain ⟨a, ha, hR⟩ := ih hb
      exact ⟨a, List.mem_cons_of_mem _ ha, hR⟩

theorem mem_mapM_except {ε α β : Type} {f : α → Except ε β} {l : List α} {bs : List β}
    (h : l.mapM f = .ok bs) {b : β} : b ∈ bs ↔ ∃ a ∈ l, f a = .ok b := by
  have hspec := mapM_except_spec h
  refine ⟨mem_of_forall₂ hspec, ?_⟩
  rintro ⟨a, ha, hb⟩
  obtain ⟨b', hb', hab⟩ := mem_of_forall₂ hspec.flip ha
  obtain rfl := Except.ok.inj (hb.symm.trans hab)
  exact hb'

theorem mapM_except_ok {ε α β : Type} {f : α → Except ε β} {l : List α}
    (h : ∀ a ∈ l, ∃ b, f a = .ok b) : ∃ bs, l.mapM f = .ok bs := by
  induction l with
  | nil => exact ⟨[], rfl⟩
  | cons a l ih =>
    obtain ⟨b, hb⟩ := h a List.mem_cons_self
    obtain ⟨bs, hbs⟩ := ih fun a' ha' => h a' (List.mem_cons_of_mem _ ha')
    exact ⟨b :: bs, by rw [List.mapM_cons, hb, ok_bind, hbs]; rfl⟩

theorem mapM_except_map {ε α β γ : Type} {f : β → Except ε γ} {g : α → β} {v : α → γ} {l : List α}
    (h : ∀ a ∈ l, f (g a) = .ok (v a)) : (l.map g).mapM f = .ok (l.map v) := by
  induction l with
  | nil => rfl
  | cons a l ih =>
    rw [List.map_cons, List.mapM_cons, h a List.mem_cons_self, ok_bind,
      ih fun b hb => h b (List.mem_cons_of_mem _ hb)]
    rfl

variable {α β : Type*} [DecidableEq α]

theorem mem_of_lookup {l : List (α × β)} {a : α} {b : β} (h : l.lookup a = some b) :
    (a, b) ∈ l := by
  obtain ⟨l₁, l₂, rfl, _⟩ := List.lookup_eq_some_iff.1 h
  simp

theorem lookup_isSome_of_mem {l : List (α × β)} {a : α} {b : β} (h : (a, b) ∈ l) :
    (l.lookup a).isSome := by
  simp only [List.lookup_isSome_iff]
  exact ⟨(a, b), h, by simp⟩

theorem lookup_cons_eq_update (l : List (α × β)) (a : α) (b : β) :
    (fun k => ((a, b) :: l).lookup k) = Function.update (fun k => l.lookup k) a (some b) := by
  funext k
  by_cases hk : k = a
  · simp [hk]
  · have hb : (k == a) = false := by simpa using hk
    simp [hk, List.lookup_cons, hb]

/-- The whitespace that Python's `strip` takes off. -/
def whitespace : List Char :=
  [0x9, 0xa, 0xb, 0xc, 0xd, 0x1c, 0x1d, 0x1e, 0x1f, 0x20, 0x85, 0xa0, 0x1680, 0x2000, 0x2001, 0x2002,
    0x2003, 0x2004, 0x2005, 0x2006, 0x2007, 0x2008, 0x2009, 0x200a, 0x2028, 0x2029, 0x202f, 0x205f,
    0x3000].map Char.ofNat

def strip (cs : List Char) : List Char :=
  ((cs.dropWhile whitespace.contains).reverse.dropWhile whitespace.contains).reverse

theorem strip_eq_self {cs : List Char} (h : ∀ c ∈ cs, whitespace.contains c = false) :
    strip cs = cs := by
  have hdrop {l : List Char} (hl : ∀ c ∈ l, whitespace.contains c = false) :
      l.dropWhile whitespace.contains = l := by
    cases l with
    | nil => rfl
    | cons c l =>
      rw [List.dropWhile_cons_of_neg]
      rw [hl c List.mem_cons_self]
      exact Bool.false_ne_true
  rw [strip, hdrop h, hdrop fun c hc => h c (List.mem_reverse.1 hc), List.reverse_reverse]

end NuzlockeSolver
