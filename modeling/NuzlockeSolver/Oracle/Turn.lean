import NuzlockeSolver.Basic
import NuzlockeSolver.Question
import NuzlockeSolver.Oracle.Rng

/-!
# Turn programs

A turn, for fixed state and actions, is a finite tree of Category-B draws and Category-A
questions. One run of it reads the injection channel, the occurrence counters and the answer
queues, and writes the log; it finishes, or pauses at a question whose queue is empty.
-/

namespace NuzlockeSolver

inductive OracleAnswer
  | pick (i0 : Int) (i1 : Int)
  | order (speedTie : List (Int × Int))
deriving DecidableEq, Repr

/-- The option an answer stands for; a speed tie is answered with the winner's side*10+slot. -/
def OracleAnswer.chosen : OracleAnswer → Int
  | pick i0 _ => i0
  | order [] => -1
  | order ((side, slot) :: _) => side * 10 + slot

inductive Turn (σ : Type)
  | done (s : σ)
  | draw (call : ResolverCall) (next : Int → Turn σ)
  | ask (event : RngEvent) (options : List Int) (next : OracleAnswer → Turn σ)

structure Injected where
  event : RngEvent
  occurrence : Nat
  boolean : Bool
  value : Int
  consumed : Bool := false
deriving DecidableEq, Repr

abbrev CategoryBInjection := List Injected

namespace CategoryBInjection

def pushBool (event : RngEvent) (occurrence : Nat) (value : Bool) : Injected :=
  { event, occurrence, boolean := true, value := outcomeOf value }

def pushInt (event : RngEvent) (occurrence : Nat) (value : Int) : Injected :=
  { event, occurrence, boolean := false, value }

def consume (event : RngEvent) (occurrence : Nat) :
    CategoryBInjection → Option (Injected × CategoryBInjection)
  | [] => none
  | o :: rest =>
    if o.event = event ∧ o.occurrence = occurrence ∧ o.consumed = false then
      some (o, { o with consumed := true } :: rest)
    else (consume event occurrence rest).map fun (found, rest) => (found, o :: rest)

def verifyExhausted (inj : CategoryBInjection) : Except Fault Unit :=
  if inj.all (·.consumed) then .ok ()
  else .error (.runtimeError "CategoryBInjection: unconsumed occurrence outcome (fail loud)")

end CategoryBInjection

structure Channels where
  injection : CategoryBInjection := []
  occ : RngEvent → Nat := fun _ => 0
  answers : RngEvent → List OracleAnswer := fun _ => []
  log : List RngEntry := []

namespace Channels

def push (c : Channels) (e : RngEntry) : Channels :=
  { c with log := c.log ++ [e] }

def bumpOccurrence (c : Channels) (event : RngEvent) : Channels :=
  { c with occ := Function.update c.occ event (c.occ event + 1) }

def answer (c : Channels) (event : RngEvent) (a : OracleAnswer) (rest : List OracleAnswer)
    (options : List Int) : Channels :=
  { c with
    answers := Function.update c.answers event rest
    log := c.log ++ [analyticalRngLogDraw event (-1) a.chosen options (-1)] }

end Channels

theorem toNat_lt_sixteen {v : Int} (h : 0 ≤ v ∧ v < 16) : v.toNat < 16 := by omega

namespace Draw

def outcome (d : Draw) (v : Int) : Int :=
  match d.dmgByRoll with
  | none => v
  | some dmg => if h : 0 ≤ v ∧ v < 16 then dmg ⟨v.toNat, toNat_lt_sixteen h⟩ else v

def resolve (d : Draw) (c : Channels) : Except Fault (Int × Channels) :=
  match d.saturated with
  | some v => .ok (v, if d.logged then c.push (d.entry v 1) else c)
  | none =>
    match CategoryBInjection.consume d.event (c.occ d.event) c.injection with
    | some (forced, rest) =>
      if forced.boolean = d.boolean then
        .ok (forced.value,
          { c.bumpOccurrence d.event with injection := rest }.push (d.entryOf forced.value))
      else .error (.runtimeError "CategoryBInjection: kind mismatch")
    | none => .ok (d.default, (c.bumpOccurrence d.event).push (d.entryOf d.default))

end Draw

inductive TurnResult (σ : Type)
  | finished (s : σ)
  | paused (event : RngEvent) (options : List Int)

/-- One run of the turn. -/
def Turn.run {σ : Type} : Turn σ → Channels → Except Fault (TurnResult σ × Channels)
  | done s, c => .ok (.finished s, c)
  | draw call next, c => do
    let (v, c) ← call.draw.resolve c
    (next (call.draw.outcome v)).run c
  | ask event options next, c =>
    match c.answers event with
    | [] => .ok (.paused event options, c)
    | a :: rest => (next a).run (c.answer event a rest options)

namespace Turn

variable {σ τ : Type}

def bind : Turn σ → (σ → Turn τ) → Turn τ
  | done s, f => f s
  | draw call next, f => draw call fun v => (next v).bind f
  | ask event options next, f => ask event options fun a => (next a).bind f

instance : Monad Turn where
  pure := done
  bind := bind

/-- A run from the one channels to the others that finishes with a result. -/
def Returns (t : Turn σ) (c : Channels) (s : σ) (c' : Channels) : Prop :=
  t.run c = .ok (.finished s, c')

@[simp] theorem returns_done {s s' : σ} {c c' : Channels} :
    (done s).Returns c s' c' ↔ s = s' ∧ c = c' := by
  simp [Returns, run]

@[simp] theorem returns_pure {s s' : σ} {c c' : Channels} :
    (pure s : Turn σ).Returns c s' c' ↔ s = s' ∧ c = c' := returns_done

theorem returns_draw {call : ResolverCall} {next : Int → Turn σ} {c c' : Channels} {s : σ} :
    (draw call next).Returns c s c' ↔
      ∃ v c₁, call.draw.resolve c = .ok (v, c₁) ∧
        (next (call.draw.outcome v)).Returns c₁ s c' := by
  simp only [Returns, run]
  cases h : call.draw.resolve c with
  | error e => simp [Bind.bind, Except.bind]
  | ok r =>
    obtain ⟨v, c₁⟩ := r
    simp [Bind.bind, Except.bind]

theorem returns_ask {event : RngEvent} {options : List Int} {next : OracleAnswer → Turn σ}
    {c c' : Channels} {s : σ} :
    (ask event options next).Returns c s c' ↔
      ∃ a rest, c.answers event = a :: rest ∧
        (next a).Returns (c.answer event a rest options) s c' := by
  simp only [Returns, run]
  cases h : c.answers event with
  | nil => simp
  | cons a rest => simp

theorem returns_bind {t : Turn σ} {f : σ → Turn τ} {c c' : Channels} {r : τ} :
    (t >>= f).Returns c r c' ↔ ∃ s c₁, t.Returns c s c₁ ∧ (f s).Returns c₁ r c' := by
  change (t.bind f).Returns c r c' ↔ _
  induction t generalizing c with
  | done s => simp [bind]
  | draw call next ih =>
    simp only [bind, returns_draw, ih]
    constructor
    · rintro ⟨v, c₁, hv, s, c₂, hs, hf⟩
      exact ⟨s, c₂, ⟨v, c₁, hv, hs⟩, hf⟩
    · rintro ⟨s, c₂, ⟨v, c₁, hv, hs⟩, hf⟩
      exact ⟨v, c₁, hv, s, c₂, hs, hf⟩
  | ask event options next ih =>
    simp only [bind, returns_ask, ih]
    constructor
    · rintro ⟨a, rest, ha, s, c₂, hs, hf⟩
      exact ⟨s, c₂, ⟨a, rest, ha, hs⟩, hf⟩
    · rintro ⟨s, c₂, ⟨a, rest, ha, hs⟩, hf⟩
      exact ⟨a, rest, ha, s, c₂, hs, hf⟩

end Turn

end NuzlockeSolver
