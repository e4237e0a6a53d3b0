import NuzlockeSolver.Oracle.Weights

/-!
# Replays consume their prefix in order

A prefix forces the outcomes of the first unsaturated draws of a turn. `Turn.after` is the
configuration those outcomes lead to; the runs here show that a replay, which looks its outcomes
up by event and occurrence number, reaches exactly that configuration.
-/

namespace NuzlockeSolver

abbrev Answers := RngEvent → List OracleAnswer

abbrev Forced := List (RngEvent × Int)

variable {σ : Type}

namespace Turn

def Over (P : ResolverCall → Prop) (Q : RngEvent → List Int → Prop) : Turn σ → Prop
  | done _ => True
  | draw call next => P call ∧ ∀ v, (next v).Over P Q
  | ask event options next => Q event options ∧ ∀ a, (next a).Over P Q

/-- The configuration in which the last forced outcome has just been taken. -/
def after (aggregate : Bool) : Turn σ → Forced → Answers → Option (Turn σ × Answers)
  | done s, vs, A => if vs = [] then some (done s, A) else none
  | draw call next, vs, A =>
    match vs with
    | [] => some (draw call next, A)
    | (e, v) :: rest =>
      match call.draw.saturated with
      | some w => (next (call.draw.outcome w)).after aggregate ((e, v) :: rest) A
      | none =>
        if call.draw.event = e ∧ v ∈ call.draw.offered aggregate then
          (next (call.draw.outcome v)).after aggregate rest A
        else none
  | ask event options next, vs, A =>
    match vs with
    | [] => some (ask event options next, A)
    | f :: rest =>
      match A event with
      | [] => none
      | a :: left => (next a).after aggregate (f :: rest) (Function.update A event left)

def settle : Turn σ → Answers → Turn σ × Answers
  | done s, A => (done s, A)
  | draw call next, A =>
    match call.draw.saturated with
    | some w => (next (call.draw.outcome w)).settle A
    | none => (draw call next, A)
  | ask event options next, A =>
    match A event with
    | [] => (ask event options next, A)
    | a :: left => (next a).settle (Function.update A event left)

@[simp] theorem after_nil (aggregate : Bool) (t : Turn σ) (A : Answers) :
    t.after aggregate [] A = some (t, A) := by
  cases t <;> simp [after]

variable {P : ResolverCall → Prop} {Q : RngEvent → List Int → Prop} {aggregate : Bool}

theorem Over.mono {Q Q' : RngEvent → List Int → Prop} {t : Turn σ} (h : t.Over P Q)
    (hQ : ∀ event options, Q event options → Q' event options) : t.Over P Q' := by
  induction t with
  | done s => trivial
  | draw call next ih => exact ⟨h.1, fun v => ih v (h.2 v)⟩
  | ask event options next ih => exact ⟨hQ _ _ h.1, fun a => ih a (h.2 a)⟩

theorem Over.after {t t' : Turn σ} {vs : Forced} {A A' : Answers} (h : t.Over P Q)
    (ht : t.after aggregate vs A = some (t', A')) : t'.Over P Q := by
  induction t generalizing vs A with
  | done s =>
    cases vs with
    | nil =>
      simp only [after_nil, Option.some.injEq, Prod.mk.injEq] at ht
      exact ht.1 ▸ h
    | cons f vs => simp [Turn.after] at ht
  | draw call next ih =>
    cases vs with
    | nil =>
      simp only [after_nil, Option.some.injEq, Prod.mk.injEq] at ht
      exact ht.1 ▸ h
    | cons f vs =>
      obtain ⟨e, v⟩ := f
      simp only [Turn.after] at ht
      split at ht
      · exact ih _ (h.2 _) ht
      · split at ht
        · exact ih _ (h.2 _) ht
        · simp at ht
  | ask event options next ih =>
    cases vs with
    | nil =>
      simp only [after_nil, Option.some.injEq, Prod.mk.injEq] at ht
      exact ht.1 ▸ h
    | cons f vs =>
      simp only [Turn.after] at ht
      split at ht
      · simp at ht
      · exact ih _ (h.2 _) ht

theorem Over.settle {t : Turn σ} (A : Answers) (h : t.Over P Q) : (t.settle A).1.Over P Q := by
  induction t generalizing A with
  | done s => exact h
  | draw call next ih =>
    simp only [Turn.settle]
    split
    · exact ih _ _ (h.2 _)
    · exact h
  | ask event options next ih =>
    simp only [Turn.settle]
    split
    · exact h
    · exact ih _ _ (h.2 _)

theorem after_append {t t' : Turn σ} {vs : Forced} {A A' A'' : Answers} {call : ResolverCall}
    {next : Int → Turn σ} {v : Int} (ht : t.after aggregate vs A = some (t', A'))
    (hs : t'.settle A' = (draw call next, A''))
    (hv : v ∈ call.draw.offered aggregate) :
    t.after aggregate (vs ++ [(call.draw.event, v)]) A =
      some (next (call.draw.outcome v), A'') := by
  induction t generalizing vs A t' A' with
  | done s =>
    cases vs with
    | nil =>
      simp only [after_nil, Option.some.injEq, Prod.mk.injEq] at ht
      rw [← ht.1] at hs
      simp [Turn.settle] at hs
    | cons f vs => simp [Turn.after] at ht
  | draw call' next' ih =>
    cases vs with
    | nil =>
      simp only [after_nil, Option.some.injEq, Prod.mk.injEq] at ht
      obtain ⟨rfl, rfl⟩ := ht
      simp only [List.nil_append, Turn.after]
      simp only [Turn.settle] at hs
      split at hs
      · exact ih _ (after_nil _ _ _) hs
      · obtain ⟨⟨rfl, rfl⟩, rfl⟩ := hs
        simp [hv]
    | cons f vs =>
      obtain ⟨e, w⟩ := f
      simp only [List.cons_append, Turn.after] at ht ⊢
      split at ht
      · exact ih _ ht hs
      · split at ht
        · rename_i hmem
          rw [if_pos hmem]
          exact ih _ ht hs
        · simp at ht
  | ask event options next' ih =>
    cases vs with
    | nil =>
      simp only [after_nil, Option.some.injEq, Prod.mk.injEq] at ht
      obtain ⟨rfl, rfl⟩ := ht
      simp only [List.nil_append, Turn.after]
      simp only [Turn.settle] at hs
      split at hs
      · cases hs
      · exact ih _ (after_nil _ _ _) hs
    | cons f vs =>
      simp only [List.cons_append, Turn.after] at ht ⊢
      split at ht
      · simp at ht
      · exact ih _ ht hs

end Turn

def Answers.add (A : Answers) (event : RngEvent) (a : OracleAnswer) : Answers :=
  Function.update A event (A event ++ [a])

theorem Answers.add_update {A : Answers} (event : RngEvent) {event' : RngEvent} (a : OracleAnswer)
    {b : OracleAnswer} {left : List OracleAnswer} (h : A event' = b :: left) :
    (A.add event a) event' = b :: (if event' = event then left ++ [a] else left) ∧
      Function.update (A.add event a) event' (if event' = event then left ++ [a] else left) =
        Answers.add (Function.update A event' left) event a := by
  by_cases he : event' = event
  · subst he
    simp [Answers.add, h]
  · refine ⟨by simp [Answers.add, he, h], ?_⟩
    simp only [Answers.add, he, if_false]
    rw [Function.update_comm (Ne.symm he), Function.update_of_ne (Ne.symm he)]

theorem Turn.after_add {t t' : Turn σ} {vs : Forced} {A A' : Answers} {aggregate : Bool}
    (event : RngEvent) (a : OracleAnswer) (ht : t.after aggregate vs A = some (t', A')) :
    t.after aggregate vs (A.add event a) = some (t', A'.add event a) := by
  induction t generalizing vs A with
  | done s =>
    cases vs with
    | nil =>
      simp only [after_nil, Option.some.injEq, Prod.mk.injEq] at ht ⊢
      exact ⟨ht.1, by rw [ht.2]⟩
    | cons f vs => simp [Turn.after] at ht
  | draw call next ih =>
    cases vs with
    | nil =>
      simp only [after_nil, Option.some.injEq, Prod.mk.injEq] at ht ⊢
      exact ⟨ht.1, by rw [ht.2]⟩
    | cons f vs =>
      obtain ⟨e, v⟩ := f
      simp only [Turn.after] at ht ⊢
      split at ht
      · exact ih _ ht
      · split at ht
        · rename_i hmem
          rw [if_pos hmem]
          exact ih _ ht
        · simp at ht
  | ask event' options next ih =>
    cases vs with
    | nil =>
      simp only [after_nil, Option.some.injEq, Prod.mk.injEq] at ht ⊢
      exact ⟨ht.1, by rw [ht.2]⟩
    | cons f vs =>
      simp only [Turn.after] at ht ⊢
      split at ht
      · simp at ht
      · rename_i b left hA
        obtain ⟨hadd, hupd⟩ := Answers.add_update event a hA
        rw [hadd]
        simp only [hupd]
        exact ih _ ht

end NuzlockeSolver
