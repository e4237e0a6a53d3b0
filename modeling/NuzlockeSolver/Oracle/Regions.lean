import Mathlib.Data.Fintype.Basic
import NuzlockeSolver.Oracle.Restart

/-!
# Routines that are resumed region by region

A routine works in regions: each is a script that leaves the next state or the result. It pauses
with the state its region started in, and is resumed from what a snapshot of that state brings
back. Paused at every question it leaves what the routine does whose regions that ask are played
from their snapshots, as long as a resumed region comes to the same question.
-/

namespace NuzlockeSolver

inductive Onward (S R : Type)
  | goOn (s : S) (clears : Bool)
  | finish (r : R)

inductive Progress (E F W S R : Type)
  | finished (r : R) (w : W)
  | paused (s : S) (e : E) (options : List Int) (w : W)
  | failed (f : F)
  | exhausted

/-- A region that goes on may keep its transient answers; a finished routine clears them, and
answers that were not taken by then are a failure. -/
structure Routine (C E A F S R : Type) where
  region : S → Script C E A F (Onward S R)
  restored : S → S
  restored_restored : ∀ s, restored (restored s) = restored s
  leftover : F

variable {C E A F S R W : Type}

namespace Progress

def Agrees (Agree : W → W → Prop) : Progress E F W S R → Progress E F W S R → Prop
  | finished r w, finished r' w' => r = r' ∧ Agree w w'
  | paused s e options w, paused s' e' options' w' =>
    s = s' ∧ e = e' ∧ options = options' ∧ Agree w w'
  | failed f, failed f' => f = f'
  | exhausted, exhausted => True
  | _, _ => False

end Progress

def Desk.UsedUp (d : Desk E A) : Prop := ∀ e, d.cursor e = (d.transient e).length

instance [Fintype E] (d : Desk E A) : Decidable d.UsedUp :=
  inferInstanceAs (Decidable (∀ e, d.cursor e = (d.transient e).length))

namespace Routine

variable [DecidableEq E] [Fintype E] (exec : C → W → Except F (Int × W))
  (T : Routine C E A F S R)

def settle (s : S) (next : S → W → Desk E A → Progress E F W S R × Desk E A) :
    Stop E F W (Onward S R) × Desk E A → Progress E F W S R × Desk E A
  | (.finished (.goOn s' clears) w, d) =>
    if clears then
      if d.UsedUp then next s' w d.clear else (.failed T.leftover, d)
    else next s' w d
  | (.finished (.finish r) w, d) =>
    if d.UsedUp then (.finished r w, d.clear) else (.failed T.leftover, d)
  | (.stalled e options w, d) => (.paused s e options w, d)
  | (.failed f, d) => (.failed f, d)

def advance : Nat → S → W → Desk E A → Progress E F W S R × Desk E A
  | 0, _, _, d => (.exhausted, d)
  | n + 1, s, w, d => T.settle s (advance n) ((T.region s).run exec w d)

def playOn (limit : Nat) : List A → Progress E F W S R × Desk E A → Progress E F W S R × List A
  | [], r => (r.1, [])
  | a :: as, (.paused s e _ w, d) =>
    playOn limit as (T.advance exec limit (T.restored s) w (d.answer e a))
  | as, (stop, _) => (stop, as)

def playThrough (limit : Nat) (as : List A) (s : S) (w : W) : Progress E F W S R × List A :=
  T.playOn exec limit as (T.advance exec limit s w {})

def playAhead (limit : Nat) (qs : List (E × A)) (s : S) (w : W) : Progress E F W S R :=
  (T.advance exec limit s w { standing := queueOf qs }).1

omit [DecidableEq E] [Fintype E] in
/-- Along the answers in the order of the questions, each region from what `origin` makes of its
state. -/
def walkFrom (origin : S → W → List A → S) :
    Nat → S → W → List A → List (E × A) × Progress E F W S R
  | 0, _, _, _ => ([], .exhausted)
  | n + 1, s, w, as =>
    let r := (T.region (origin s w as)).walk exec w as
    match r.2 with
    | .finished (.goOn s' _) w' =>
      let rest := walkFrom origin n s' w' (as.drop r.1.length)
      (r.1 ++ rest.1, rest.2)
    | .finished (.finish x) w' => (r.1, .finished x w')
    | .stalled e options w' => (r.1, .paused (origin s w as) e options w')
    | .failed f => (r.1, .failed f)

omit [DecidableEq E] [Fintype E] in
def walk : Nat → S → W → List A → List (E × A) × Progress E F W S R :=
  T.walkFrom exec fun s _ _ => s

omit [DecidableEq E] [Fintype E] in
def restart (s : S) (w : W) (as : List A) : S :=
  if ((T.region s).walk exec w as).1.isEmpty then s else T.restored s

omit [DecidableEq E] [Fintype E] in
def walkResumed : Nat → S → W → List A → List (E × A) × Progress E F W S R :=
  T.walkFrom exec (T.restart exec)

omit [DecidableEq E] [Fintype E] in
/-- A condition on every region of a walk, given the answers of the regions after it. No region
leaves an answer behind to one that asks. -/
def Along (origin : S → W → List A → S) (P : List (E × A) → S → W → List A → Prop) :
    Nat → S → W → List A → Prop
  | 0, _, _, _ => True
  | n + 1, s, w, as =>
    let asked := ((T.region (origin s w as)).walk exec w as).1
    match ((T.region (origin s w as)).walk exec w as).2 with
    | .finished (.goOn s' clears) w' =>
      let later := (T.walkFrom exec origin n s' w' (as.drop asked.length)).1
      P later s w as ∧ (clears = true ∨ asked = [] ∨ later = []) ∧
        Along origin P n s' w' (as.drop asked.length)
    | _ => P [] s w as

omit [DecidableEq E] [Fintype E] in
/-- A region that asks is resumed as it was, and touches nothing a pause does not take back before
it asks; no region takes an answer ahead of its question. -/
def Untouched (Agree : W → W → Prop) (later : List (E × A)) (s : S) (w : W) (as : List A) : Prop :=
  (((T.region s).walk exec w as).1 ≠ [] → T.restored s = s) ∧
    (T.region s).Restartable exec Agree w as ∧ (T.region s).Timely exec later w as

omit [DecidableEq E] [Fintype E] in
/-- A region that asks comes to the same question when it is resumed. Until then it touches nothing
that a pause does not take back, no more than the region it is resumed as. -/
def Resumable (Agree : W → W → Prop) (_ : List (E × A)) (s : S) (w : W) (as : List A) : Prop :=
  (((T.region s).walk exec w as).1 ≠ [] →
      ((T.region s).walk exec w as).1.head?.map Prod.fst =
          ((T.region (T.restart exec s w as)).walk exec w as).1.head?.map Prod.fst ∧
        (∀ e options u, ((T.region s).walk exec w []).2 = .stalled e options u → Agree w u) ∧
        (T.region s).Timely exec [] w []) ∧
    (T.region (T.restart exec s w as)).Restartable exec Agree w as ∧
      (T.region (T.restart exec s w as)).Timely exec [] w as

omit [DecidableEq E] [Fintype E] in
/-- No trace of a pause. -/
def Seamless (Agree : W → W → Prop) : Nat → S → W → List A → Prop :=
  T.Along exec (fun s _ _ => s) (T.Untouched exec Agree)

omit [DecidableEq E] [Fintype E] in
/-- No trace of a pause but the state that a region is resumed in. -/
def Repeats (Agree : W → W → Prop) : Nat → S → W → List A → Prop :=
  T.Along exec (T.restart exec) (T.Resumable exec Agree)

instance (Agree : W → W → Prop) [DecidableRel Agree] [∀ s, Decidable (T.restored s = s)]
    (later : List (E × A)) (s : S) (w : W) (as : List A) :
    Decidable (T.Untouched exec Agree later s w as) :=
  inferInstanceAs (Decidable (_ ∧ _))

instance (Agree : W → W → Prop) [DecidableRel Agree] (later : List (E × A)) (s : S) (w : W)
    (as : List A) : Decidable (T.Resumable exec Agree later s w as) :=
  inferInstanceAs (Decidable (_ ∧ _))

instance decidableAlong (origin : S → W → List A → S)
    (P : List (E × A) → S → W → List A → Prop) [∀ later s w as, Decidable (P later s w as)] :
    ∀ n s w as, Decidable (T.Along exec origin P n s w as)
  | 0, _, _, _ => .isTrue trivial
  | n + 1, s, w, as =>
    match hr : ((T.region (origin s w as)).walk exec w as).2 with
    | .finished (.goOn s' clears) w' =>
      let asked := ((T.region (origin s w as)).walk exec w as).1
      let later := (T.walkFrom exec origin n s' w' (as.drop asked.length)).1
      have := decidableAlong origin P n s' w' (as.drop asked.length)
      decidable_of_iff (P later s w as ∧ (clears = true ∨ asked = [] ∨ later = []) ∧
          T.Along exec origin P n s' w' (as.drop asked.length))
        (by rw [Along, hr])
    | .finished (.finish _) _ => decidable_of_iff (P [] s w as) (by rw [Along, hr])
    | .stalled _ _ _ => decidable_of_iff (P [] s w as) (by rw [Along, hr])
    | .failed _ => decidable_of_iff (P [] s w as) (by rw [Along, hr])

instance (Agree : W → W → Prop) [DecidableRel Agree] [∀ s, Decidable (T.restored s = s)]
    (n : Nat) (s : S) (w : W) (as : List A) : Decidable (T.Seamless exec Agree n s w as) :=
  decidableAlong exec T _ _ n s w as

instance (Agree : W → W → Prop) [DecidableRel Agree] (n : Nat) (s : S) (w : W) (as : List A) :
    Decidable (T.Repeats exec Agree n s w as) :=
  decidableAlong exec T _ _ n s w as

end Routine

namespace Desk

variable [DecidableEq E]

theorem Spent.usedUp {d : Desk E A} {qs : List (E × A)} (h : d.Spent qs) : d.UsedUp := h.cursor

theorem Spent.clear {d : Desk E A} {qs : List (E × A)} (h : d.Spent qs) : d.clear.Spent [] where
  transient := rfl
  cursor _ := rfl
  standing := h.standing

theorem Spent.fresh {d : Desk E A} (h : d.Spent []) : d.Fresh [] where
  transient := h.transient
  standing := h.standing
  cursor e := by
    rw [h.cursor, h.transient]
    rfl

structure Ahead (d : Desk E A) (qs : List (E × A)) : Prop where
  transient : d.transient = fun _ => []
  cursor : ∀ e, d.cursor e = 0
  holds : d.Holds qs

theorem Ahead.usedUp {d : Desk E A} {qs : List (E × A)} (h : d.Ahead qs) : d.UsedUp := by
  intro e
  rw [h.cursor, h.transient]
  rfl

theorem Ahead.keeps {d d' : Desk E A} {qs qs' : List (E × A)} (h : d.Ahead qs)
    (hkeep : d.Keeps d') (hd' : d'.Holds qs') : d'.Ahead qs' where
  transient := hkeep.transient.trans h.transient
  holds := hd'
  cursor e := by
    have hle := hkeep.within (fun e => by rw [h.cursor]; exact Nat.zero_le _) e
    rw [h.transient] at hle
    exact Nat.le_zero.mp hle

theorem Ahead.clear {d : Desk E A} {qs : List (E × A)} (h : d.Ahead qs) : d.clear.Ahead qs where
  transient := rfl
  cursor _ := rfl
  holds e := by
    rw [← h.holds e, h.transient, List.drop_nil]
    rfl

theorem ahead_queueOf (qs : List (E × A)) : Ahead { standing := queueOf qs } qs where
  transient := rfl
  cursor _ := rfl
  holds _ := rfl

end Desk

namespace Routine

variable [DecidableEq E] [Fintype E] {exec : C → W → Except F (Int × W)} {T : Routine C E A F S R}

theorem playOn_region {limit : Nat} (hlimit : 0 < limit) {s : S} (hs : T.restored s = s)
    (as : List A) (w : W) (d : Desk E A) (n : Nat) :
    ∃ m, (m = n ∨ m + 1 = limit) ∧
      T.playOn exec limit as (T.advance exec (n + 1) s w d) =
        T.playOn exec limit ((T.region s).attempts exec as w d).2
          (T.settle s (T.advance exec m) ((T.region s).attempts exec as w d).1) := by
  induction as generalizing w d n with
  | nil => exact ⟨n, .inl rfl, rfl⟩
  | cons a as ih =>
    rw [Script.attempts]
    cases hrun : (T.region s).run exec w d with
    | mk stop d' =>
      cases stop with
      | stalled e options w' =>
        obtain ⟨left, rfl⟩ := Nat.exists_eq_succ_of_ne_zero (Nat.ne_of_gt hlimit)
        obtain ⟨m, hm, hplay⟩ := ih w' (d'.answer e a) left
        refine ⟨m, .inr ?_, ?_⟩
        · rcases hm with rfl | hm
          · rfl
          · exact hm
        · rw [← hplay, advance, hrun, settle, playOn, hs]
      | finished x w' => exact ⟨n, .inl rfl, by rw [advance, hrun]⟩
      | failed f => exact ⟨n, .inl rfl, by rw [advance, hrun]⟩

variable {Agree : W → W → Prop}

omit [DecidableEq E] [Fintype E] in
theorem restart_of_silent {s : S} {w : W} {as : List A}
    (h : ((T.region s).walk exec w as).1 = []) : T.restart exec s w as = s := by
  rw [restart, h]
  rfl

omit [DecidableEq E] [Fintype E] in
theorem restart_of_asks {s : S} {w : W} {as : List A}
    (h : ((T.region s).walk exec w as).1 ≠ []) : T.restart exec s w as = T.restored s := by
  rw [restart, if_neg]
  rwa [List.isEmpty_iff]

/-- A region that is resumed at every pause leaves what the walk of the resumed region does. -/
theorem playOn_region_of_walk (hexec : Script.Respects exec Agree)
    (htrans : ∀ {u v x}, Agree u v → Agree v x → Agree u x) {limit n m : Nat} (hlimit : n < limit)
    (hm : n ≤ m) {s : S} {w : W} {as : List A} {later : List (E × A)}
    (hres : T.Resumable exec Agree later s w as) {w₁ : W} (hw : Agree w w₁) {d : Desk E A}
    {qs : List (E × A)} (hd : d.Spent qs)
    (hqs : qs = [] ∨ ((T.region (T.restart exec s w as)).walk exec w as).1 = []) :
    ∃ stop d' m', n ≤ m' ∧
      T.playOn exec limit as (T.advance exec (m + 1) s w₁ d) =
        T.playOn exec limit
          (as.drop ((T.region (T.restart exec s w as)).walk exec w as).1.length)
          (T.settle (T.restart exec s w as) (T.advance exec m') (stop, d')) ∧
      ((T.region (T.restart exec s w as)).walk exec w as).2.Agrees Agree stop ∧
      d'.Spent (if ((T.region (T.restart exec s w as)).walk exec w as).1 = [] then qs
        else ((T.region (T.restart exec s w as)).walk exec w as).1) := by
  obtain ⟨hask, hclean, ht⟩ := hres
  by_cases hasked : ((T.region s).walk exec w as).1 = []
  · rw [restart_of_silent hasked] at ht ⊢
    obtain ⟨hsame, hstop⟩ := Script.walk_agrees hexec (T.region s) hw as
    obtain ⟨d', hrun, hd', hkeep⟩ := Script.run_of_walk [] (T.region s) (w := w₁)
      (by rw [hsame, hasked]; exact hd.holds)
      (Script.timely_agrees hexec _ hw ht)
      (by intro e options w' _ q hq; cases hq)
    refine ⟨_, d', m, hm, ?_, hstop, ?_⟩
    · rw [advance, hrun, hasked, List.length_nil, List.drop_zero]
    · rw [if_pos hasked]
      exact hd.keeps hkeep hd'
  · obtain ⟨hsame, hfirst, ht₀⟩ := hask hasked
    rw [restart_of_asks hasked] at hclean ht hqs hsame ⊢
    obtain ⟨q, hq⟩ := Option.isSome_iff_exists.1 (List.isSome_head?.2 hasked)
    rw [hq] at hsame
    cases as with
    | nil =>
      exact absurd (List.map_eq_nil_iff.1 ((Script.map_snd_walk _ w []).trans List.take_nil)) hasked
    | cons a as =>
      have hone : ((T.region (T.restored s)).walk exec w (a :: as)).1.take 1 = [(q.1, a)] :=
        Script.walk_take_one hsame.symm
      have hne : ((T.region (T.restored s)).walk exec w (a :: as)).1 ≠ [] := by
        intro hnil
        rw [hnil] at hone
        cases hone
      obtain rfl := hqs.resolve_right hne
      obtain ⟨options, v, d₁, hrun, hv, hd₁⟩ :=
        Script.run_of_first hexec htrans hq hfirst ht₀ hw hd
      have hfresh := hd₁.answer (q.1, a)
      rw [List.nil_append, ← hone] at hfresh
      obtain ⟨stop, d', hattempts, hstop, hspent⟩ := Script.attempts_of_walk hexec htrans ht hclean
        (Nat.one_le_iff_ne_zero.2 fun h => hne (List.length_eq_zero_iff.1 h)) hv hfresh
      obtain ⟨left, rfl⟩ := Nat.exists_eq_succ_of_ne_zero (Nat.ne_of_gt (Nat.zero_lt_of_lt hlimit))
      obtain ⟨m', hm', hplay⟩ := playOn_region (Nat.succ_pos left) (T.restored_restored s) as v
        (d₁.answer q.1 a) left
      rw [List.drop_one, List.tail_cons] at hattempts
      rw [hattempts] at hplay
      refine ⟨stop, d', m', ?_, ?_, hstop, ?_⟩
      · rcases hm' with rfl | hm'
        · exact Nat.le_of_lt_succ hlimit
        · omega
      · rw [← hplay, advance, hrun, settle, playOn]
      · rw [if_neg hne]
        exact hspent

theorem playOn_of_walk (hexec : Script.Respects exec Agree)
    (htrans : ∀ {u v x}, Agree u v → Agree v x → Agree u x) {limit n : Nat} {s : S} {w : W}
    {as : List A} (hrep : T.Repeats exec Agree n s w as)
    (hends : (T.walkResumed exec n s w as).2 ≠ .exhausted) {m : Nat} (hm : n ≤ m)
    (hlimit : n ≤ limit) {w₁ : W} (hw : Agree w w₁) {d : Desk E A} {qs : List (E × A)}
    (hd : d.Spent qs) (hqs : qs = [] ∨ (T.walkResumed exec n s w as).1 = []) :
    ∃ stop, T.playOn exec limit as (T.advance exec m s w₁ d) =
        (stop, as.drop (T.walkResumed exec n s w as).1.length) ∧
      (T.walkResumed exec n s w as).2.Agrees Agree stop := by
  induction n generalizing s w as m w₁ d qs with
  | zero => exact absurd rfl hends
  | succ n ih =>
    obtain ⟨m, rfl⟩ := Nat.exists_eq_succ_of_ne_zero (Nat.ne_of_gt (Nat.zero_lt_of_lt hm))
    rw [walkResumed, walkFrom] at hends hqs ⊢
    rw [Repeats, Along] at hrep
    have hplayed {later : List (E × A)} (hres : T.Resumable exec Agree later s w as)
        (hqs : qs = [] ∨ ((T.region (T.restart exec s w as)).walk exec w as).1 = []) :=
      playOn_region_of_walk hexec htrans hlimit (Nat.le_of_succ_le_succ hm) hres hw hd hqs
    cases hr : ((T.region (T.restart exec s w as)).walk exec w as).2 with
    | stalled e options u =>
      simp only [hr] at hrep hqs ⊢
      obtain ⟨stop, d', m', -, hplay, hstop, -⟩ := hplayed hrep hqs
      obtain ⟨u', rfl, hu⟩ := (hr ▸ hstop).of_stalled
      have hdrop := Script.length_of_stalled hr
      rw [hdrop, List.drop_length] at hplay ⊢
      exact ⟨_, hplay, rfl, rfl, rfl, hu⟩
    | failed f =>
      simp only [hr] at hrep hqs ⊢
      obtain ⟨stop, d', m', -, hplay, hstop, -⟩ := hplayed hrep hqs
      obtain rfl := (hr ▸ hstop).of_failed
      exact ⟨.failed f, by rw [hplay, settle]; cases as.drop _ <;> rfl, rfl⟩
    | finished x u =>
      cases x with
      | finish x =>
        simp only [hr] at hrep hqs ⊢
        obtain ⟨stop, d', m', -, hplay, hstop, hspent⟩ := hplayed hrep hqs
        obtain ⟨u', rfl, hu⟩ := (hr ▸ hstop).of_finished
        refine ⟨.finished x u', ?_, rfl, hu⟩
        rw [hplay, settle, if_pos hspent.usedUp]
        cases as.drop _ <;> rfl
      | goOn s' clears =>
        simp only [hr] at hrep hqs hends ⊢
        obtain ⟨hres, hclears, hlater⟩ := hrep
        obtain ⟨stop, d', m', hm', hplay, hstop, hspent⟩ := hplayed hres
          (hqs.imp_right fun h => (List.append_eq_nil_iff.mp h).1)
        obtain ⟨u', rfl, hu⟩ := (hr ▸ hstop).of_finished
        rw [hplay, settle, List.length_append, ← List.drop_drop]
        cases clears with
        | true =>
          rw [if_pos rfl, if_pos hspent.usedUp]
          exact ih hlater hends hm' (Nat.le_of_succ_le hlimit) hu hspent.clear (.inl rfl)
        | false =>
          rw [if_neg Bool.false_ne_true]
          refine ih hlater hends hm' (Nat.le_of_succ_le hlimit) hu hspent ?_
          by_cases hasked : ((T.region (T.restart exec s w as)).walk exec w as).1 = []
          · rw [if_pos hasked]
            exact hqs.imp_right fun h => (List.append_eq_nil_iff.mp h).2
          · exact .inr ((hclears.resolve_left Bool.false_ne_true).resolve_left hasked)

theorem advance_of_walk {n : Nat} {s : S} {w : W} {as : List A}
    (hseam : T.Seamless exec Agree n s w as) {d : Desk E A}
    (hd : d.Ahead (T.walk exec n s w as).1) :
    (T.advance exec n s w d).1 = (T.walk exec n s w as).2 := by
  induction n generalizing s w as d with
  | zero => rfl
  | succ n ih =>
    rw [walk, walkFrom] at hd ⊢
    rw [Seamless, Along] at hseam
    rw [advance]
    cases hr : ((T.region s).walk exec w as).2 with
    | stalled e options u =>
      simp only [hr] at hseam hd ⊢
      obtain ⟨d', hrun, -, -⟩ := Script.run_of_walk [] _
        (by rw [List.append_nil]; exact hd.holds) hseam.2.2
        (by intro e options w' _ q hq; cases hq)
      rw [hrun, hr, settle]
    | failed f =>
      simp only [hr] at hseam hd ⊢
      obtain ⟨d', hrun, -, -⟩ := Script.run_of_walk [] _
        (by rw [List.append_nil]; exact hd.holds) hseam.2.2
        (by intro e options w' _ q hq; cases hq)
      rw [hrun, hr, settle]
    | finished x u =>
      cases x with
      | finish x =>
        simp only [hr] at hseam hd ⊢
        obtain ⟨d', hrun, hd', hkeep⟩ := Script.run_of_walk [] _
          (by rw [List.append_nil]; exact hd.holds) hseam.2.2
          (by intro e options w' _ q hq; cases hq)
        rw [hrun, hr, settle, if_pos (hd.keeps hkeep hd').usedUp]
      | goOn s' clears =>
        simp only [hr] at hseam hd ⊢
        obtain ⟨⟨-, -, ht⟩, -, hlater⟩ := hseam
        obtain ⟨d', hrun, hd', hkeep⟩ := Script.run_of_walk _ _ hd.holds ht
          (by intro e options w' hs; rw [hr] at hs; cases hs)
        have hahead := hd.keeps hkeep hd'
        rw [hrun, hr, settle]
        cases clears with
        | true =>
          rw [if_pos rfl, if_pos hahead.usedUp]
          exact ih hlater hahead.clear
        | false =>
          rw [if_neg Bool.false_ne_true]
          exact ih hlater hahead

/-- Pausing at every question and going on from the snapshots leaves what the walk does that plays
each region that asks from its snapshot. -/
theorem playThrough_agrees (hexec : Script.Respects exec Agree)
    (htrans : ∀ {u v x}, Agree u v → Agree v x → Agree u x) {limit : Nat} {s : S} {w : W}
    (hw : Agree w w) {as : List A} (hrep : T.Repeats exec Agree limit s w as)
    (hends : (T.walkResumed exec limit s w as).2 ≠ .exhausted) :
    (T.walkResumed exec limit s w as).2.Agrees Agree (T.playThrough exec limit as s w).1 ∧
      (T.playThrough exec limit as s w).2 =
        as.drop (T.walkResumed exec limit s w as).1.length := by
  obtain ⟨stop, hplay, hstop⟩ := playOn_of_walk hexec htrans hrep hends (Nat.le_refl _)
    (Nat.le_refl _) hw Desk.Spent.empty (.inl rfl)
  rw [playThrough, hplay]
  exact ⟨hstop, rfl⟩

omit [DecidableEq E] [Fintype E] in
theorem Untouched.restart_eq {later : List (E × A)} {s : S} {w : W} {as : List A}
    (h : T.Untouched exec Agree later s w as) : T.restart exec s w as = s := by
  by_cases hasked : ((T.region s).walk exec w as).1 = []
  · exact restart_of_silent hasked
  · exact (restart_of_asks hasked).trans (h.1 hasked)

omit [DecidableEq E] [Fintype E] in
theorem Untouched.resumable {later : List (E × A)} {s : S} {w : W} {as : List A}
    (h : T.Untouched exec Agree later s w as) : T.Resumable exec Agree later s w as := by
  obtain ⟨hs, hclean, ht⟩ := h
  rw [Resumable, Untouched.restart_eq ⟨hs, hclean, ht⟩]
  refine ⟨fun hasked => ⟨rfl, fun e options u hstall => ?_, ?_⟩, hclean, Script.timely_nil ht⟩
  · exact hclean 0 (List.length_pos_of_ne_nil hasked) e options u (by rwa [List.take_zero])
  · exact Script.timely_take _ 0 ht

omit [DecidableEq E] [Fintype E] in
theorem Seamless.repeats {n : Nat} {s : S} {w : W} {as : List A}
    (h : T.Seamless exec Agree n s w as) :
    T.Repeats exec Agree n s w as ∧ T.walkResumed exec n s w as = T.walk exec n s w as := by
  induction n generalizing s w as with
  | zero => exact ⟨trivial, rfl⟩
  | succ n ih =>
    rw [Seamless, Along] at h
    have hregion {later : List (E × A)} (h : T.Untouched exec Agree later s w as) :=
      And.intro h.restart_eq h.resumable
    rw [Repeats, Along, walkResumed, walk, walkFrom, walkFrom]
    cases hr : ((T.region s).walk exec w as).2 with
    | stalled e options u =>
      simp only [hr] at h
      obtain ⟨hs, hres⟩ := hregion h
      simp only [hs, hr]
      exact ⟨hres, trivial⟩
    | failed f =>
      simp only [hr] at h
      obtain ⟨hs, hres⟩ := hregion h
      simp only [hs, hr]
      exact ⟨hres, trivial⟩
    | finished next u =>
      cases next with
      | finish x =>
        simp only [hr] at h
        obtain ⟨hs, hres⟩ := hregion h
        simp only [hs, hr]
        exact ⟨hres, trivial⟩
      | goOn s' clears =>
        simp only [hr] at h
        obtain ⟨hun, hclears, hlater⟩ := h
        obtain ⟨hs, hres⟩ := hregion hun
        obtain ⟨hrep, hwalk⟩ := ih hlater
        simp only [hs, hr]
        rw [walkResumed, walk] at hwalk
        rw [hwalk]
        exact ⟨⟨hres, hclears, hrep⟩, rfl⟩

theorem playAhead_eq {limit : Nat} {s : S} {w : W} {as : List A}
    (hseam : T.Seamless exec Agree limit s w as) :
    T.playAhead exec limit (T.walk exec limit s w as).1 s w = (T.walk exec limit s w as).2 :=
  advance_of_walk hseam (Desk.ahead_queueOf _)

omit [DecidableEq E] [Fintype E] in
theorem walkFrom_ends {size : S → Nat} {origin : S → W → List A → S}
    (hsize : ∀ s, (T.region s).Returns fun next => ∀ s' clears, next = .goOn s' clears →
      size s' < size s) (horigin : ∀ s w as, size (origin s w as) = size s) {n : Nat} {s : S}
    (h : size s < n) (w : W) (as : List A) :
    (T.walkFrom exec origin n s w as).2 ≠ .exhausted := by
  induction n generalizing s w as with
  | zero => exact absurd h (Nat.not_lt_zero _)
  | succ n ih =>
    rw [walkFrom]
    cases hr : ((T.region (origin s w as)).walk exec w as).2 with
    | stalled e options u => nofun
    | failed f => nofun
    | finished next u =>
      cases next with
      | finish x => nofun
      | goOn s' clears =>
        have hlt := (hsize (origin s w as)).of_walk hr s' clears rfl
        rw [horigin] at hlt
        exact ih (Nat.lt_of_lt_of_le hlt (Nat.le_of_lt_succ h)) u _

end Routine

end NuzlockeSolver
