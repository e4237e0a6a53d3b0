import Mathlib.Logic.Function.Basic
import Mathlib.Data.List.Basic

/-!
# Programs that are restarted at their questions

A script calls on the world and asks questions. It runs on a desk of answers and pauses at a
question without one; the pause forgets how far it came, and the script is run again from its
beginning with one more answer on the desk. A walk takes the answers in the order of the questions
instead, without a pause. Runs and walks agree where no answer is taken ahead of its question.
-/

namespace NuzlockeSolver

inductive Script (C E A F σ : Type)
  | done (s : σ)
  | fail (f : F)
  | call (c : C) (next : Int → Script C E A F σ)
  | ask (e : E) (options : List Int) (next : A → Script C E A F σ)
  | offer (e : E) (next : Option A → Script C E A F σ)

namespace Script

variable {C E A F σ τ W : Type}

def bind : Script C E A F σ → (σ → Script C E A F τ) → Script C E A F τ
  | done s, f => f s
  | fail e, _ => fail e
  | call c next, f => call c fun v => (next v).bind f
  | ask e options next, f => ask e options fun a => (next a).bind f
  | offer e next, f => offer e fun a => (next a).bind f

instance : Monad (Script C E A F) where
  pure := done
  bind := bind

end Script

/-- The answers at hand: for each event the transient ones, read from a cursor on, and then the
standing ones. -/
structure Desk (E A : Type) where
  standing : E → List A := fun _ => []
  transient : E → List A := fun _ => []
  cursor : E → Nat := fun _ => 0

def queueOf {E A : Type} [DecidableEq E] (qs : List (E × A)) (e : E) : List A :=
  (qs.filter fun q => q.1 = e).map Prod.snd

namespace Desk

variable {E A : Type}

def take [DecidableEq E] (d : Desk E A) (e : E) : Option (A × Desk E A) :=
  match (d.transient e)[d.cursor e]? with
  | some a => some (a, { d with cursor := Function.update d.cursor e (d.cursor e + 1) })
  | none =>
    match d.standing e with
    | [] => none
    | a :: rest => some (a, { d with standing := Function.update d.standing e rest })

def answer [DecidableEq E] (d : Desk E A) (e : E) (a : A) : Desk E A :=
  { d with
    transient := Function.update d.transient e (d.transient e ++ [a])
    cursor := fun _ => 0 }

def clear (d : Desk E A) : Desk E A := { standing := d.standing }

def Holds [DecidableEq E] (d : Desk E A) (qs : List (E × A)) : Prop :=
  ∀ e, (d.transient e).drop (d.cursor e) ++ d.standing e = queueOf qs e

structure Keeps (d d' : Desk E A) : Prop where
  transient : d'.transient = d.transient
  within : (∀ e, d.cursor e ≤ (d.transient e).length) → ∀ e, d'.cursor e ≤ (d.transient e).length
  standing : (∀ e, d.standing e = []) → ∀ e, d'.standing e = []

theorem Keeps.refl (d : Desk E A) : Keeps d d := ⟨rfl, id, id⟩

theorem Keeps.trans {d d₁ d₂ : Desk E A} (h : Keeps d d₁) (h' : Keeps d₁ d₂) : Keeps d d₂ where
  transient := h'.transient.trans h.transient
  within hd := by
    have hd₁ := h.within hd
    rw [← h.transient] at hd₁ ⊢
    exact h'.within hd₁
  standing hd := h'.standing (h.standing hd)

end Desk

section Queue

variable {E A : Type} [DecidableEq E]

@[simp] theorem queueOf_nil (e : E) : queueOf ([] : List (E × A)) e = [] := rfl

theorem queueOf_cons (q : E × A) (qs : List (E × A)) (e : E) :
    queueOf (q :: qs) e = if q.1 = e then q.2 :: queueOf qs e else queueOf qs e := by
  unfold queueOf
  by_cases h : q.1 = e <;> simp [h]

theorem queueOf_append (qs rs : List (E × A)) (e : E) :
    queueOf (qs ++ rs) e = queueOf qs e ++ queueOf rs e := by
  unfold queueOf
  rw [List.filter_append, List.map_append]

theorem queueOf_eq_nil {qs : List (E × A)} {e : E} (h : ∀ q ∈ qs, q.1 ≠ e) :
    queueOf qs e = [] := by
  unfold queueOf
  rw [List.filter_eq_nil_iff.mpr fun q hq => by simp [h q hq], List.map_nil]

namespace Desk

theorem take_of_holds {d : Desk E A} {e : E} {a : A} {qs : List (E × A)}
    (h : d.Holds ((e, a) :: qs)) : ∃ d', d.take e = some (a, d') ∧ d'.Holds qs ∧ d.Keeps d' := by
  have he := h e
  rw [queueOf_cons, if_pos rfl] at he
  have hother {e' : E} (hne : e' ≠ e) :
      (d.transient e').drop (d.cursor e') ++ d.standing e' = queueOf qs e' := by
    rw [h e', queueOf_cons, if_neg (Ne.symm hne)]
  unfold take
  cases hget : (d.transient e)[d.cursor e]? with
  | some b =>
    obtain ⟨hlt, rfl⟩ := List.getElem?_eq_some_iff.mp hget
    rw [List.drop_eq_getElem_cons hlt, List.cons_append] at he
    obtain ⟨rfl, hrest⟩ := List.cons.inj he
    refine ⟨_, rfl, fun e' => ?_, rfl, fun hd e' => ?_, id⟩
    · by_cases hne : e' = e
      · subst hne
        simpa using hrest
      · simpa [Function.update_of_ne hne] using hother hne
    · by_cases hne : e' = e
      · subst hne
        change Function.update d.cursor e' (d.cursor e' + 1) e' ≤ _
        rw [Function.update_self]
        exact hlt
      · simpa [Function.update_of_ne hne] using hd e'
  | none =>
    have hle := List.getElem?_eq_none_iff.mp hget
    rw [List.drop_eq_nil_of_le hle, List.nil_append] at he
    rw [he]
    refine ⟨_, rfl, fun e' => ?_, rfl, fun hd => hd, fun hd => ?_⟩
    · by_cases hne : e' = e
      · subst hne
        simp [List.drop_eq_nil_of_le hle]
      · simpa [Function.update_of_ne hne] using hother hne
    · rw [hd e] at he
      cases he

theorem take_eq_none {d : Desk E A} {e : E} {qs : List (E × A)} (h : d.Holds qs)
    (hqs : ∀ q ∈ qs, q.1 ≠ e) : d.take e = none := by
  have he := h e
  rw [queueOf_eq_nil hqs, List.append_eq_nil_iff, List.drop_eq_nil_iff] at he
  unfold take
  rw [List.getElem?_eq_none he.1, he.2]

end Desk

end Queue

inductive Stop (E F W σ : Type)
  | finished (s : σ) (w : W)
  | stalled (e : E) (options : List Int) (w : W)
  | failed (f : F)

namespace Stop

variable {C E A F W σ : Type}

def Agrees (Agree : W → W → Prop) : Stop E F W σ → Stop E F W σ → Prop
  | finished s w, finished s' w' => s = s' ∧ Agree w w'
  | stalled e options w, stalled e' options' w' => e = e' ∧ options = options' ∧ Agree w w'
  | failed f, failed f' => f = f'
  | _, _ => False

variable {Agree : W → W → Prop}

theorem Agrees.of_finished {s : σ} {w : W} {stop : Stop E F W σ}
    (h : (finished s w).Agrees Agree stop) : ∃ w', stop = finished s w' ∧ Agree w w' := by
  cases stop with
  | finished s' w' =>
    obtain ⟨rfl, hw⟩ := h
    exact ⟨w', rfl, hw⟩
  | stalled e options w' => cases h
  | failed f => cases h

theorem Agrees.of_stalled {e : E} {options : List Int} {w : W} {stop : Stop E F W σ}
    (h : (stalled e options w).Agrees Agree stop) :
    ∃ w', stop = stalled e options w' ∧ Agree w w' := by
  cases stop with
  | stalled e' options' w' =>
    obtain ⟨rfl, rfl, hw⟩ := h
    exact ⟨w', rfl, hw⟩
  | finished s w' => cases h
  | failed f => cases h

theorem Agrees.of_failed {f : F} {stop : Stop E F W σ}
    (h : (failed f).Agrees Agree stop) : stop = failed f := by
  cases stop with
  | failed f' => exact congrArg failed (Eq.symm h)
  | finished s w' => cases h
  | stalled e options w' => cases h

end Stop

namespace Script

variable {C E A F σ W : Type} (exec : C → W → Except F (Int × W))

/-- A run on a desk: where it stops, and the desk it leaves. -/
def run [DecidableEq E] : Script C E A F σ → W → Desk E A → Stop E F W σ × Desk E A
  | done s, w, d => (.finished s w, d)
  | fail f, _, d => (.failed f, d)
  | call c next, w, d =>
    match exec c w with
    | .ok (v, w) => (next v).run w d
    | .error f => (.failed f, d)
  | ask e options next, w, d =>
    match d.take e with
    | some (a, d) => (next a).run w d
    | none => (.stalled e options w, d)
  | offer e next, w, d =>
    match d.take e with
    | some (a, d) => (next (some a)).run w d
    | none => (next none).run w d

def walk : Script C E A F σ → W → List A → List (E × A) × Stop E F W σ
  | done s, w, _ => ([], .finished s w)
  | fail f, _, _ => ([], .failed f)
  | call c next, w, as =>
    match exec c w with
    | .ok (v, w) => (next v).walk w as
    | .error f => ([], .failed f)
  | ask e options _, w, [] => ([], .stalled e options w)
  | ask e _ next, w, a :: as =>
    let rest := (next a).walk w as
    ((e, a) :: rest.1, rest.2)
  | offer _ next, w, as => (next none).walk w as

/-- No answer is taken at an offer: no question of its event is answered after it, neither in the
script nor among the later ones. -/
def Timely (later : List (E × A)) : Script C E A F σ → W → List A → Prop
  | done _, _, _ => True
  | fail _, _, _ => True
  | call c next, w, as =>
    match exec c w with
    | .ok (v, w) => (next v).Timely later w as
    | .error _ => True
  | ask _ _ _, _, [] => True
  | ask _ _ next, w, a :: as => (next a).Timely later w as
  | offer e next, w, as =>
    (∀ q ∈ ((next none).walk exec w as).1 ++ later, q.1 ≠ e) ∧ (next none).Timely later w as

variable {exec}

theorem map_snd_walk (p : Script C E A F σ) (w : W) (as : List A) :
    (p.walk exec w as).1.map Prod.snd = as.take (p.walk exec w as).1.length := by
  induction p generalizing w as with
  | done s => simp [walk]
  | fail f => simp [walk]
  | call c next ih =>
    rw [walk]
    cases exec c w with
    | ok r => exact ih r.1 r.2 as
    | error f => simp
  | ask e options next ih =>
    cases as with
    | nil => simp [walk]
    | cons a as => simp [walk, ih a w as]
  | offer e next ih => exact ih none w as

/-- A run on the answers of a walk, with more of them on the desk, stops where the walk does. -/
theorem run_of_walk [DecidableEq E] (later : List (E × A)) (p : Script C E A F σ) {w : W}
    {as : List A} {d : Desk E A} (hd : d.Holds ((p.walk exec w as).1 ++ later))
    (ht : p.Timely exec later w as)
    (hstall : ∀ e options w', (p.walk exec w as).2 = .stalled e options w' →
      ∀ q ∈ later, q.1 ≠ e) :
    ∃ d', p.run exec w d = ((p.walk exec w as).2, d') ∧ d'.Holds later ∧ d.Keeps d' := by
  induction p generalizing w as d with
  | done s => exact ⟨d, rfl, hd, .refl d⟩
  | fail f => exact ⟨d, rfl, hd, .refl d⟩
  | call c next ih =>
    rw [walk] at hd hstall ⊢
    rw [Timely] at ht
    rw [run]
    cases hc : exec c w with
    | ok r =>
      rw [hc] at hd hstall ht
      exact ih r.1 hd ht hstall
    | error f =>
      rw [hc] at hd
      exact ⟨d, rfl, hd, .refl d⟩
  | ask e options next ih =>
    cases as with
    | nil =>
      have hnone : d.take e = none := Desk.take_eq_none hd (hstall e options w rfl)
      refine ⟨d, ?_, hd, .refl d⟩
      rw [run, hnone]
      rfl
    | cons a as =>
      obtain ⟨d₁, htake, hd₁, hkeep⟩ := Desk.take_of_holds hd
      obtain ⟨d', hrun, hd', hkeep'⟩ := ih a hd₁ ht hstall
      refine ⟨d', ?_, hd', hkeep.trans hkeep'⟩
      rw [run, htake]
      exact hrun
  | offer e next ih =>
    have hnone : d.take e = none := Desk.take_eq_none hd ht.1
    obtain ⟨d', hrun, hd', hkeep⟩ := ih none hd ht.2 hstall
    refine ⟨d', ?_, hd', hkeep⟩
    rw [run, hnone]
    exact hrun

theorem walk_call_ok {c : C} {next : Int → Script C E A F σ} {w w' : W} {v : Int}
    (h : exec c w = .ok (v, w')) (as : List A) :
    (call c next).walk exec w as = (next v).walk exec w' as := by
  rw [walk, h]

theorem walk_call_error {c : C} {next : Int → Script C E A F σ} {w : W} {f : F}
    (h : exec c w = .error f) (as : List A) :
    (call c next).walk exec w as = ([], .failed f) := by
  rw [walk, h]

theorem timely_call_ok {later : List (E × A)} {c : C} {next : Int → Script C E A F σ} {w w' : W}
    {v : Int} (h : exec c w = .ok (v, w')) (as : List A) :
    (call c next).Timely exec later w as ↔ (next v).Timely exec later w' as := by
  rw [Timely, h]

theorem walk_take (p : Script C E A F σ) {w : W} {as : List A} {k : Nat} {q : E × A}
    (hk : (p.walk exec w as).1[k]? = some q) :
    ∃ options w', p.walk exec w (as.take k) =
      ((p.walk exec w as).1.take k, .stalled q.1 options w') := by
  induction p generalizing w as k with
  | done s => cases hk
  | fail f => cases hk
  | call c next ih =>
    cases hc : exec c w with
    | ok r =>
      rw [walk_call_ok hc] at hk ⊢
      rw [walk_call_ok hc]
      exact ih r.1 hk
    | error f =>
      rw [walk_call_error hc] at hk
      cases hk
  | ask e options next ih =>
    cases as with
    | nil => cases hk
    | cons a as =>
      cases k with
      | zero =>
        obtain rfl := Option.some.inj hk
        exact ⟨options, w, rfl⟩
      | succ k =>
        obtain ⟨options', w', hwalk⟩ := ih a hk
        refine ⟨options', w', ?_⟩
        rw [List.take_succ_cons, walk, hwalk]
        rfl
  | offer e next ih => exact ih none hk

theorem walk_take_of_le (p : Script C E A F σ) {w : W} {as : List A} {k : Nat}
    (hk : (p.walk exec w as).1.length ≤ k) : p.walk exec w (as.take k) = p.walk exec w as := by
  induction p generalizing w as k with
  | done s => rfl
  | fail f => rfl
  | call c next ih =>
    cases hc : exec c w with
    | ok r =>
      rw [walk_call_ok hc] at hk ⊢
      rw [walk_call_ok hc]
      exact ih r.1 hk
    | error f => rw [walk_call_error hc, walk_call_error hc]
  | ask e options next ih =>
    cases as with
    | nil => rw [List.take_nil]
    | cons a as =>
      cases k with
      | zero => cases hk
      | succ k =>
        rw [List.take_succ_cons, walk, walk, ih a (Nat.le_of_succ_le_succ hk)]
  | offer e next ih => exact ih none hk

theorem walk_take_subset (p : Script C E A F σ) (w : W) (as : List A) (k : Nat) :
    (p.walk exec w (as.take k)).1 ⊆ (p.walk exec w as).1 := by
  by_cases hk : k < (p.walk exec w as).1.length
  · obtain ⟨options, w', hwalk⟩ := walk_take p (List.getElem?_eq_getElem hk)
    rw [hwalk]
    exact List.take_subset k _
  · rw [walk_take_of_le p (Nat.le_of_not_lt hk)]
    exact List.Subset.refl _

theorem timely_take {later : List (E × A)} (p : Script C E A F σ) {w : W} {as : List A} (k : Nat)
    (ht : p.Timely exec later w as) : p.Timely exec [] w (as.take k) := by
  induction p generalizing w as k with
  | done s => trivial
  | fail f => trivial
  | call c next ih =>
    cases hc : exec c w with
    | ok r =>
      rw [timely_call_ok hc] at ht ⊢
      exact ih r.1 k ht
    | error f =>
      rw [Timely, hc]
      trivial
  | ask e options next ih =>
    cases as with
    | nil =>
      rw [List.take_nil]
      trivial
    | cons a as =>
      cases k with
      | zero => trivial
      | succ k => exact ih a k ht
  | offer e next ih =>
    refine ⟨fun q hq => ht.1 q ?_, ih none k ht.2⟩
    rw [List.append_nil] at hq
    exact List.mem_append_left _ (walk_take_subset (next none) w as k hq)

structure Respects (exec : C → W → Except F (Int × W)) (Agree : W → W → Prop) : Prop where
  ok : ∀ {c w w₁ v w'}, Agree w w₁ → exec c w = .ok (v, w') →
    ∃ w₁', exec c w₁ = .ok (v, w₁') ∧ Agree w' w₁'
  error : ∀ {c w w₁ f}, Agree w w₁ → exec c w = .error f → exec c w₁ = .error f

theorem walk_agrees {Agree : W → W → Prop} (hexec : Respects exec Agree) (p : Script C E A F σ)
    {w w₁ : W} (hw : Agree w w₁) (as : List A) :
    (p.walk exec w₁ as).1 = (p.walk exec w as).1 ∧
      (p.walk exec w as).2.Agrees Agree (p.walk exec w₁ as).2 := by
  induction p generalizing w w₁ as with
  | done s => exact ⟨rfl, rfl, hw⟩
  | fail f => exact ⟨rfl, rfl⟩
  | call c next ih =>
    cases hc : exec c w with
    | ok r =>
      obtain ⟨w₁', hc₁, hw'⟩ := hexec.ok hw hc
      rw [walk_call_ok hc, walk_call_ok hc₁]
      exact ih r.1 hw' as
    | error f =>
      rw [walk_call_error hc, walk_call_error (hexec.error hw hc)]
      exact ⟨rfl, rfl⟩
  | ask e options next ih =>
    cases as with
    | nil => exact ⟨rfl, rfl, rfl, hw⟩
    | cons a as =>
      obtain ⟨hasked, hstop⟩ := ih a hw as
      exact ⟨congrArg (List.cons (e, a)) hasked, hstop⟩
  | offer e next ih => exact ih none hw as

/-- Every result, whatever the calls and the answers give. -/
inductive Returns (P : σ → Prop) : Script C E A F σ → Prop
  | done {s : σ} (h : P s) : Returns P (done s)
  | fail {f : F} : Returns P (fail f)
  | call {c : C} {next : Int → Script C E A F σ} (h : ∀ v, Returns P (next v)) :
    Returns P (call c next)
  | ask {e : E} {options : List Int} {next : A → Script C E A F σ} (h : ∀ a, Returns P (next a)) :
    Returns P (ask e options next)
  | offer {e : E} {next : Option A → Script C E A F σ} (h : ∀ a, Returns P (next a)) :
    Returns P (offer e next)

theorem Returns.mono {P Q : σ → Prop} (hPQ : ∀ s, P s → Q s) {p : Script C E A F σ}
    (h : p.Returns P) : p.Returns Q := by
  induction h with
  | done h => exact .done (hPQ _ h)
  | fail => exact .fail
  | call h ih => exact .call ih
  | ask h ih => exact .ask ih
  | offer h ih => exact .offer ih

theorem Returns.bind {P : σ → Prop} {Q : τ → Prop} {p : Script C E A F σ}
    {f : σ → Script C E A F τ} (hp : p.Returns P) (hf : ∀ s, P s → (f s).Returns Q) :
    (p.bind f).Returns Q := by
  induction hp with
  | done h => exact hf _ h
  | fail => exact .fail
  | call h ih => exact .call ih
  | ask h ih => exact .ask ih
  | offer h ih => exact .offer ih

theorem returns_bind_of_forall {Q : τ → Prop} (p : Script C E A F σ)
    {f : σ → Script C E A F τ} (hf : ∀ s, (f s).Returns Q) : (p.bind f).Returns Q := by
  induction p with
  | done s => exact hf s
  | fail e => exact .fail
  | call c next ih => exact .call ih
  | ask e options next ih => exact .ask ih
  | offer e next ih => exact .offer ih

theorem Returns.of_walk {P : σ → Prop} {p : Script C E A F σ} (h : p.Returns P) {w w' : W}
    {as : List A} {s : σ} (hwalk : (p.walk exec w as).2 = .finished s w') : P s := by
  induction h generalizing w as with
  | done h =>
    cases hwalk
    exact h
  | fail => cases hwalk
  | @call c next h ih =>
    cases hc : exec c w with
    | ok r =>
      rw [walk_call_ok hc] at hwalk
      exact ih r.1 hwalk
    | error f =>
      rw [walk_call_error hc] at hwalk
      cases hwalk
  | ask h ih =>
    cases as with
    | nil => cases hwalk
    | cons a as => exact ih a hwalk
  | offer h ih => exact ih none hwalk

theorem timely_nil {later : List (E × A)} {p : Script C E A F σ} {w : W} {as : List A}
    (ht : p.Timely exec later w as) : p.Timely exec [] w as := by
  have h := timely_take p as.length ht
  rwa [List.take_length] at h

theorem timely_agrees {Agree : W → W → Prop} (hexec : Respects exec Agree) {later : List (E × A)}
    (p : Script C E A F σ) {w w₁ : W} (hw : Agree w w₁) {as : List A}
    (ht : p.Timely exec later w as) : p.Timely exec later w₁ as := by
  induction p generalizing w w₁ as with
  | done s => trivial
  | fail f => trivial
  | call c next ih =>
    cases hc : exec c w with
    | ok r =>
      obtain ⟨w₁', hc₁, hw'⟩ := hexec.ok hw hc
      rw [timely_call_ok hc] at ht
      rw [timely_call_ok hc₁]
      exact ih r.1 hw' ht
    | error f =>
      rw [Timely, hexec.error hw hc]
      trivial
  | ask e options next ih =>
    cases as with
    | nil => trivial
    | cons a as => exact ih a hw ht
  | offer e next ih =>
    refine ⟨fun q hq => ht.1 q ?_, ih none hw ht.2⟩
    rwa [(walk_agrees hexec (next none) hw as).1] at hq

theorem length_of_stalled {p : Script C E A F σ} {w : W} {as : List A} {e : E} {options : List Int}
    {w' : W} (h : (p.walk exec w as).2 = .stalled e options w') :
    (p.walk exec w as).1.length = as.length := by
  induction p generalizing w as with
  | done s => cases h
  | fail f => cases h
  | call c next ih =>
    cases hc : exec c w with
    | ok r =>
      rw [walk_call_ok hc] at h ⊢
      exact ih r.1 h
    | error f =>
      rw [walk_call_error hc] at h
      cases h
  | ask e' options' next ih =>
    cases as with
    | nil => rfl
    | cons a as => exact congrArg Nat.succ (ih a h)
  | offer e' next ih => exact ih none h

end Script

namespace Desk

variable {E A : Type} [DecidableEq E]

/-- Only these answers are at hand, none of them taken. -/
structure Fresh (d : Desk E A) (qs : List (E × A)) : Prop where
  transient : d.transient = queueOf qs
  cursor : ∀ e, d.cursor e = 0
  standing : ∀ e, d.standing e = []

structure Spent (d : Desk E A) (qs : List (E × A)) : Prop where
  transient : d.transient = queueOf qs
  cursor : ∀ e, d.cursor e = (d.transient e).length
  standing : ∀ e, d.standing e = []

theorem Spent.empty : ({} : Desk E A).Spent [] :=
  ⟨rfl, fun _ => rfl, fun _ => rfl⟩

theorem Fresh.holds {d : Desk E A} {qs : List (E × A)} (h : d.Fresh qs) : d.Holds qs := by
  intro e
  rw [h.transient, h.cursor, h.standing, List.drop_zero, List.append_nil]

theorem Spent.holds {d : Desk E A} {qs : List (E × A)} (h : d.Spent qs) : d.Holds [] := by
  intro e
  rw [h.cursor, h.standing, List.drop_length]
  rfl

theorem Keeps.cursor_eq {d d' : Desk E A} (hkeep : d.Keeps d')
    (hd : ∀ e, d.cursor e ≤ (d.transient e).length) (hd' : d'.Holds []) (e : E) :
    d'.cursor e = (d'.transient e).length := by
  have hle := hkeep.within hd e
  have hge := hd' e
  rw [queueOf_nil, List.append_eq_nil_iff, List.drop_eq_nil_iff] at hge
  rw [hkeep.transient] at hge ⊢
  exact Nat.le_antisymm hle hge.1

theorem Fresh.spent {d d' : Desk E A} {qs : List (E × A)} (h : d.Fresh qs) (hkeep : d.Keeps d')
    (hd' : d'.Holds []) : d'.Spent qs where
  transient := hkeep.transient.trans h.transient
  standing := hkeep.standing h.standing
  cursor := hkeep.cursor_eq (fun e => by rw [h.cursor]; exact Nat.zero_le _) hd'

theorem Spent.keeps {d d' : Desk E A} {qs : List (E × A)} (h : d.Spent qs) (hkeep : d.Keeps d')
    (hd' : d'.Holds []) : d'.Spent qs where
  transient := hkeep.transient.trans h.transient
  standing := hkeep.standing h.standing
  cursor := hkeep.cursor_eq (fun e => Nat.le_of_eq (h.cursor e)) hd'

theorem Spent.answer {d : Desk E A} {qs : List (E × A)} (h : d.Spent qs) (q : E × A) :
    (d.answer q.1 q.2).Fresh (qs ++ [q]) where
  cursor _ := rfl
  standing := h.standing
  transient := by
    funext e
    change Function.update d.transient q.1 (d.transient q.1 ++ [q.2]) e = _
    rw [h.transient, queueOf_append, queueOf_cons]
    by_cases he : q.1 = e
    · subst he
      rw [Function.update_self, if_pos rfl]
      rfl
    · rw [Function.update_of_ne (Ne.symm he), if_neg he]
      simp

end Desk

namespace Script

variable {C E A F σ W : Type} (exec : C → W → Except F (Int × W))

def attempts [DecidableEq E] (p : Script C E A F σ) :
    List A → W → Desk E A → (Stop E F W σ × Desk E A) × List A
  | [], w, d => (p.run exec w d, [])
  | a :: as, w, d =>
    match p.run exec w d with
    | (.stalled e _ w', d') => attempts p as w' (d'.answer e a)
    | (stop, d') => ((stop, d'), a :: as)

/-- Whatever a pause at a question does not take back was not touched before that question. -/
def Restartable (Agree : W → W → Prop) (p : Script C E A F σ) (w : W) (as : List A) : Prop :=
  ∀ k < (p.walk exec w as).1.length, ∀ e options u,
    (p.walk exec w (as.take k)).2 = .stalled e options u → Agree w u

instance decidableTimely [DecidableEq E] (later : List (E × A)) :
    ∀ (p : Script C E A F σ) (w : W) (as : List A), Decidable (p.Timely exec later w as)
  | done _, _, _ => .isTrue trivial
  | fail _, _, _ => .isTrue trivial
  | call c next, w, as =>
    match hc : exec c w with
    | .ok r =>
      have := decidableTimely later (next r.1) r.2 as
      decidable_of_iff _ (timely_call_ok hc as).symm
    | .error _ => .isTrue (by rw [Timely, hc]; trivial)
  | ask _ _ _, _, [] => .isTrue trivial
  | ask _ _ next, w, a :: as => decidableTimely later (next a) w as
  | offer e next, w, as =>
    have := decidableTimely later (next none) w as
    inferInstanceAs (Decidable (
      (∀ q ∈ ((next none).walk exec w as).1 ++ later, q.1 ≠ e) ∧
        (next none).Timely exec later w as))

variable {exec} {Agree : W → W → Prop}

instance decidableStalledAgree [DecidableRel Agree] (w : W) :
    ∀ stop : Stop E F W σ, Decidable (∀ e options u, stop = .stalled e options u → Agree w u)
  | .finished _ _ => .isTrue fun _ _ _ h => nomatch h
  | .failed _ => .isTrue fun _ _ _ h => nomatch h
  | .stalled e options u =>
    decidable_of_iff (Agree w u)
      ⟨fun h _ _ _ heq => by cases heq; exact h, fun h => h e options u rfl⟩

instance [DecidableRel Agree] (p : Script C E A F σ) (w : W) (as : List A) :
    Decidable (p.Restartable exec Agree w as) :=
  inferInstanceAs (Decidable (∀ k < (p.walk exec w as).1.length, ∀ e options u,
    (p.walk exec w (as.take k)).2 = .stalled e options u → Agree w u))

theorem walk_take_one {p : Script C E A F σ} {w : W} {a : A} {as : List A} {e : E}
    (h : (p.walk exec w (a :: as)).1.head?.map Prod.fst = some e) :
    (p.walk exec w (a :: as)).1.take 1 = [(e, a)] := by
  have hmap : (p.walk exec w (a :: as)).1.map Prod.snd = _ := map_snd_walk p w (a :: as)
  cases hasked : (p.walk exec w (a :: as)).1 with
  | nil =>
    rw [hasked] at h
    cases h
  | cons q qs =>
    rw [hasked] at h hmap
    obtain rfl : q.1 = e := Option.some.inj h
    obtain rfl : q.2 = a := (List.cons.inj hmap).1
    rfl

theorem run_of_first [DecidableEq E] (hexec : Respects exec Agree)
    (htrans : ∀ {u v x}, Agree u v → Agree v x → Agree u x) {p : Script C E A F σ} {w : W}
    {as : List A} {q : E × A} (hq : (p.walk exec w as).1.head? = some q)
    (hclean : ∀ e options u, (p.walk exec w []).2 = .stalled e options u → Agree w u)
    (ht : p.Timely exec [] w []) {w₁ : W} (hw : Agree w w₁) {d : Desk E A} (hd : d.Spent []) :
    ∃ options v d', p.run exec w₁ d = (.stalled q.1 options v, d') ∧ Agree w v ∧ d'.Spent [] := by
  rw [List.head?_eq_getElem?] at hq
  obtain ⟨options, u, hwalk⟩ := walk_take p hq
  rw [List.take_zero, List.take_zero] at hwalk
  obtain ⟨hasked, hstop⟩ := walk_agrees hexec p hw []
  obtain ⟨d', hrun, hd', hkeep⟩ := run_of_walk [] p (w := w₁)
    (by rw [hasked, hwalk]; exact hd.holds) (timely_agrees hexec p hw ht)
    (by intro e options w' _ q hq; cases hq)
  rw [hwalk] at hstop
  obtain ⟨v, hs, huv⟩ := hstop.of_stalled
  rw [hs] at hrun
  exact ⟨options, v, d', hrun, htrans (hclean _ options u (by rw [hwalk])) huv,
    hd.keeps hkeep hd'⟩

/-- Pausing at every question and starting over ends where the walk along the answers does. -/
theorem attempts_of_walk [DecidableEq E] (hexec : Respects exec Agree)
    (htrans : ∀ {u v x}, Agree u v → Agree v x → Agree u x) {p : Script C E A F σ} {w : W}
    {as : List A} (ht : p.Timely exec [] w as) (hclean : p.Restartable exec Agree w as) {k : Nat}
    (hk : k ≤ (p.walk exec w as).1.length) {w₁ : W} (hw : Agree w w₁) {d : Desk E A}
    (hd : d.Fresh ((p.walk exec w as).1.take k)) :
    ∃ stop d', p.attempts exec (as.drop k) w₁ d =
        ((stop, d'), as.drop (p.walk exec w as).1.length) ∧
      (p.walk exec w as).2.Agrees Agree stop ∧ d'.Spent (p.walk exec w as).1 := by
  induction hleft : (p.walk exec w as).1.length - k generalizing k w₁ d with
  | zero =>
    have hkn : (p.walk exec w as).1.length = k := by omega
    obtain ⟨hasked, hstop⟩ := walk_agrees hexec p hw as
    rw [List.take_of_length_le (Nat.le_of_eq hkn)] at hd
    obtain ⟨d', hrun, hd', hkeep⟩ := run_of_walk [] p (w := w₁)
      (by rw [List.append_nil, hasked]; exact hd.holds) (timely_agrees hexec p hw ht)
      (by intro e options w' _ q hq; cases hq)
    refine ⟨_, d', ?_, hstop, hd.spent hkeep hd'⟩
    rw [hkn]
    cases hrest : as.drop k with
    | nil => rw [attempts, hrun]
    | cons a rest =>
      rw [attempts, hrun]
      cases hs : (p.walk exec w₁ as).2 with
      | finished s u => rfl
      | failed f => rfl
      | stalled e options u =>
        have hlength := length_of_stalled hs
        rw [hasked, hkn] at hlength
        rw [hlength, List.drop_length] at hrest
        cases hrest
  | succ left ih =>
    have hlt : k < (p.walk exec w as).1.length := by omega
    obtain ⟨options, u, hwalk⟩ := walk_take p (List.getElem?_eq_getElem hlt)
    obtain ⟨hasked, hstop⟩ := walk_agrees hexec p hw (as.take k)
    obtain ⟨d', hrun, hd', hkeep⟩ := run_of_walk [] p (w := w₁)
      (by rw [List.append_nil, hasked, hwalk]; exact hd.holds)
      (timely_agrees hexec p hw (timely_take p k ht)) (by intro e options w' _ q hq; cases hq)
    rw [hwalk] at hstop
    have hmap : (p.walk exec w as).1.map Prod.snd = as.take (p.walk exec w as).1.length :=
      map_snd_walk p w as
    have hlen : k < as.length := by
      have h := congrArg List.length hmap
      rw [List.length_map, List.length_take] at h
      omega
    have hanswer : (p.walk exec w as).1[k].2 = as[k] := by
      have h := congrArg (fun l => l[k]?) hmap
      simpa [hlt, hlen] using h
    obtain ⟨v, hs, huv⟩ := hstop.of_stalled
    rw [hs] at hrun
    have hwv : Agree w v := htrans (hclean k hlt _ options u (by rw [hwalk])) huv
    have hfresh := (hd.spent hkeep hd').answer (p.walk exec w as).1[k]
    rw [← List.take_succ_eq_append_getElem hlt, hanswer] at hfresh
    rw [List.drop_eq_getElem_cons hlen, attempts, hrun]
    exact ih hlt hwv hfresh (by omega)

end Script

end NuzlockeSolver
