import NuzlockeSolver.Emulator.Server

/-!
# The client and the script

The client sends a command and waits for a response; the script receives the stream in pieces, runs
each complete command and answers it, and puts the host's key presses into the same stream as the
responses. A session is every interleaving of the two sides and of the pieces that the network
delivers.
-/

namespace NuzlockeSolver.Emulator

/-- A handler of commands whose responses are frames; it gives `none` where the script raises or
the emulator crashes. -/
structure Handler (M : Type) where
  run : M → List UInt8 → Option (M × List UInt8)
  framed : ∀ {emu emu' : M} {line response : List UInt8}, DELIMITER.Clean line →
    run emu line = some (emu', response) → Framed response

def commandHandler {M : Type} (E : Emu M) : Handler M where
  run := handleCommand E
  framed := framed_handleCommand

structure Served (M : Type) where
  emu : M
  sent : List UInt8
  buffer : Option (List UInt8)

section Serve

variable {M : Type} (H : Handler M)

def serve : Nat → M → List UInt8 → Served M
  | 0, emu, buffer => ⟨emu, [], some buffer⟩
  | fuel + 1, emu, buffer =>
    match DELIMITER.cut buffer with
    | none => ⟨emu, [], some buffer⟩
    | some (message, rest) =>
      match H.run emu message with
      | none => ⟨emu, [], none⟩
      | some (emu', response) =>
        let later := serve fuel emu' rest
        { later with sent := response ++ later.sent }

/-- The responses to a list of commands, each run once. -/
def answers : M → List (List UInt8) → Option (M × List (List UInt8))
  | emu, [] => some (emu, [])
  | emu, cmd :: cmds =>
    (H.run emu cmd).bind fun r => (answers r.1 cmds).map fun q => (q.1, r.2 :: q.2)

variable {H} {emu : M}

theorem answers_append {cmds cmds' : List (List UInt8)} {emu₁ emu₂ : M}
    {rs rs' : List (List UInt8)} (h : answers H emu cmds = some (emu₁, rs))
    (h' : answers H emu₁ cmds' = some (emu₂, rs')) :
    answers H emu (cmds ++ cmds') = some (emu₂, rs ++ rs') := by
  induction cmds generalizing emu rs with
  | nil =>
    cases h
    exact h'
  | cons cmd cmds ih =>
    obtain ⟨r, hr, h⟩ := Option.bind_eq_some_iff.1 h
    obtain ⟨q, hq, hrs⟩ := Option.map_eq_some_iff.1 h
    cases hrs
    rw [List.cons_append, answers, hr, Option.bind_some, ih hq]
    rfl

theorem answers_one {cmd response : List UInt8} {emu' : M}
    (h : H.run emu cmd = some (emu', response)) :
    answers H emu [cmd] = some (emu', [response]) := by
  rw [answers, h]
  rfl

theorem serve_spec {fuel : Nat} {buffer r : List UInt8} {ms : List (List UInt8)}
    (h : DELIMITER.Splits buffer ms r) (hfuel : ms.length < fuel) :
    ∃ done rs, answers H emu done = some ((serve H fuel emu buffer).emu, rs) ∧
      (serve H fuel emu buffer).sent = rs.flatten ∧
      ((done = ms ∧ (serve H fuel emu buffer).buffer = some r) ∨
        ∃ cmd rest, ms = done ++ cmd :: rest ∧
          H.run (serve H fuel emu buffer).emu cmd = none ∧
          (serve H fuel emu buffer).buffer = none) := by
  induction ms generalizing fuel emu buffer with
  | nil =>
    obtain ⟨fuel, rfl⟩ : ∃ f, fuel = f + 1 := ⟨fuel - 1, by omega⟩
    have hserve : serve H (fuel + 1) emu buffer = ⟨emu, [], some buffer⟩ := by
      rw [serve, h.cut_nil]
    have hr : buffer = r := h.eq
    rw [hserve, hr]
    exact ⟨[], [], rfl, rfl, .inl ⟨rfl, rfl⟩⟩
  | cons cmd ms ih =>
    obtain ⟨fuel, rfl⟩ : ∃ f, fuel = f + 1 := ⟨fuel - 1, by omega⟩
    cases hrun : H.run emu cmd with
    | none =>
      have hserve : serve H (fuel + 1) emu buffer = ⟨emu, [], none⟩ := by
        simp only [serve, h.cut_cons, hrun]
      rw [hserve]
      exact ⟨[], [], rfl, rfl, .inr ⟨cmd, ms, rfl, hrun, rfl⟩⟩
    | some q =>
      have hserve : serve H (fuel + 1) emu buffer =
          { serve H fuel q.1 (DELIMITER.frames ms ++ r) with
            sent := q.2 ++ (serve H fuel q.1 (DELIMITER.frames ms ++ r)).sent } := by
        simp only [serve, h.cut_cons, hrun]
      rw [List.length_cons] at hfuel
      obtain ⟨done, rs, hanswers, hsent, hend⟩ := @ih q.1 fuel _ h.tail (by omega)
      rw [hserve]
      refine ⟨cmd :: done, q.2 :: rs, ?_, by rw [hsent, List.flatten_cons], ?_⟩
      · rw [answers, hrun, Option.bind_some, hanswers]
        rfl
      · obtain ⟨rfl, hbuffer⟩ | ⟨cmd', rest, rfl, hraise, hbuffer⟩ := hend
        · exact .inl ⟨rfl, hbuffer⟩
        · exact .inr ⟨cmd', rest, rfl, hraise, hbuffer⟩

end Serve

inductive Call where
  | command (text : List UInt8)
  | event
  deriving DecidableEq

/-- How a wait ends: with a message, with the socket's timeout, or with a connection error. -/
inductive Reply where
  | message (raw : List UInt8)
  | timeout
  | closed
  deriving DecidableEq

inductive Link where
  | backlog
  | accepted
  | closed
  deriving DecidableEq

structure Session (M : Type) where
  calling : Option (Call × List UInt8) := none
  log : List (Call × Reply) := []
  toServer : List UInt8 := []
  toClient : List UInt8 := []
  link : Link := .backlog
  buffer : List UInt8 := []
  emu : M

inductive HostKey where
  | l
  | o
  | m
  | p
  deriving DecidableEq

def HostKey.event : HostKey → String
  | .l => "toggle_capture"
  | .o => "init_battle"
  | .m => "save_state"
  | .p => "save_training_data"

/-- One step of either side. -/
inductive Label where
  | call (c : Call)
  | recv (n : Nat)
  | timeout
  | eof
  | frame (n : Nat)
  | key (k : HostKey)
  deriving DecidableEq

def RECV_SIZE : Nat := 4096

def Call.wire : Call → List UInt8
  | .command text => text ++ DELIMITER.word
  | .event => []

def HostKey.raw (k : HostKey) : List UInt8 := EVENT_PFX ++ encode k.event

section Steps

variable {M : Type} (H : Handler M)

namespace Session

variable (s : Session M)

/-- The call under way ends. -/
def finish (c : Call) (r : Reply) : Session M :=
  { s with calling := none, log := s.log ++ [(c, r)] }

def receive (c : Call) (buf : List UInt8) (n : Nat) : Session M :=
  let rest := { s with toClient := s.toClient.drop n }
  match DELIMITER.cut (buf ++ s.toClient.take n) with
  | none => { rest with calling := some (c, buf ++ s.toClient.take n) }
  | some r => rest.finish c (.message r.1)

/-- The loop of a frame in which `n` bytes have come in. -/
def serving (n : Nat) : Served M :=
  serve H ((s.buffer ++ s.toServer.take n).length + 1) s.emu (s.buffer ++ s.toServer.take n)

def serveFrame (n : Nat) : Session M :=
  { s with
    emu := (s.serving H n).emu
    toServer := s.toServer.drop n
    toClient := s.toClient ++ (s.serving H n).sent
    buffer := (s.serving H n).buffer.getD []
    link := if (s.serving H n).buffer.isSome then .accepted else .closed }

def pushEvent (k : HostKey) : Session M :=
  { s with toClient := s.toClient ++ (k.raw ++ DELIMITER.word) }

end Session

def step : Label → Session M → Option (Session M)
  | .call c, s =>
    if s.calling = none then
      some { s with calling := some (c, []), toServer := s.toServer ++ c.wire }
    else none
  | .recv n, s =>
    s.calling.bind fun wait =>
      if 0 < n ∧ n ≤ RECV_SIZE ∧ n ≤ s.toClient.length then some (s.receive wait.1 wait.2 n)
      else none
  | .timeout, s => s.calling.map fun wait => s.finish wait.1 .timeout
  | .eof, s =>
    if s.link = .closed then s.calling.map fun wait => s.finish wait.1 .closed else none
  | .frame n, s =>
    match s.link with
    | .backlog => if n = 0 then some { s with link := .accepted, buffer := [] } else none
    | .accepted =>
      if n ≤ RECV_SIZE ∧ n ≤ s.toServer.length then some (s.serveFrame H n) else none
    | .closed => none
  | .key k, s => some (if s.link = .accepted then s.pushEvent k else s)

def run : List Label → Session M → Option (Session M)
  | [], s => some s
  | l :: ls, s => (step H l s).bind (run ls)

def start (emu : M) : Session M := { emu := emu }

end Steps

def commandOf : Label → Option (List UInt8)
  | .call (.command text) => some text
  | _ => none

/-- The commands that a run sends, in order. -/
def commandsOf (ls : List Label) : List (List UInt8) := ls.filterMap commandOf

def Session.server {M : Type} (s : Session M) : M × Link × List UInt8 × List UInt8 :=
  (s.emu, s.link, s.buffer, s.toServer)

/-- The script has run a first part of the commands, each once and in order. The others are on their
way to it, or lost with the connection from one on at which it raised. -/
def Ordered {M : Type} (H : Handler M) (emu₀ : M) (sent : List (List UInt8)) (s : Session M) :
    Prop :=
  ∃ handled pending rs, sent = handled ++ pending ∧
    answers H emu₀ handled = some (s.emu, rs) ∧
    (s.link ≠ .closed → s.buffer ++ s.toServer = DELIMITER.frames pending) ∧
    (s.link = .backlog → s.buffer = []) ∧
    (s.link = .closed → ∃ cmd rest, pending = cmd :: rest ∧ H.run s.emu cmd = none)

section Ordered

variable {M : Type} {H : Handler M} {emu₀ : M} {sent : List (List UInt8)} {s s' : Session M}

@[simp] theorem server_finish (c : Call) (r : Reply) : (s.finish c r).server = s.server := rfl

@[simp] theorem server_receive (c : Call) (buf : List UInt8) (n : Nat) :
    (s.receive c buf n).server = s.server := by
  unfold Session.receive
  dsimp only
  split <;> rfl

theorem Ordered.of_server (h : Ordered H emu₀ sent s) (heq : s'.server = s.server) :
    Ordered H emu₀ sent s' := by
  obtain ⟨hemu, hlink, hbuffer, hserver⟩ :
      s'.emu = s.emu ∧ s'.link = s.link ∧ s'.buffer = s.buffer ∧ s'.toServer = s.toServer := by
    simpa [Session.server] using heq
  unfold Ordered
  rw [hemu, hlink, hbuffer, hserver]
  exact h

theorem Ordered.call (h : Ordered H emu₀ sent s) (c : Call) :
    Ordered H emu₀ (sent ++ commandsOf [.call c])
      { s with calling := some (c, []), toServer := s.toServer ++ c.wire } := by
  obtain ⟨handled, pending, rs, rfl, hanswers, hstream, hbacklog, hlost⟩ := h
  cases c with
  | event =>
    refine ⟨handled, pending, rs, List.append_nil _, hanswers, fun hlink => ?_, hbacklog, hlost⟩
    rw [Call.wire, List.append_nil]
    exact hstream hlink
  | command text =>
    refine ⟨handled, pending ++ [text], rs, List.append_assoc _ _ _, hanswers, fun hlink => ?_,
      hbacklog, fun hlink => ?_⟩
    · rw [Call.wire, ← List.append_assoc, hstream hlink, Delimiter.frames_append]
      simp [Delimiter.frames]
    · obtain ⟨cmd, rest, rfl, hraise⟩ := hlost hlink
      exact ⟨cmd, rest ++ [text], rfl, hraise⟩

theorem Ordered.accept (h : Ordered H emu₀ sent s) (hlink : s.link = .backlog) :
    Ordered H emu₀ sent { s with link := .accepted, buffer := [] } := by
  obtain ⟨handled, pending, rs, rfl, hanswers, hstream, hbacklog, -⟩ := h
  rw [hlink, hbacklog hlink] at hstream
  exact ⟨handled, pending, rs, rfl, hanswers, fun _ => hstream (by decide), fun _ => rfl,
    fun hclosed => by cases hclosed⟩

theorem Ordered.serveFrame (h : Ordered H emu₀ sent s) (hclean : ∀ c ∈ sent, DELIMITER.Clean c)
    (hlink : s.link ≠ .closed) (n : Nat) : Ordered H emu₀ sent (s.serveFrame H n) := by
  obtain ⟨handled, pending, rs, rfl, hanswers, hstream, -, -⟩ := h
  have hpiece :
      (s.buffer ++ s.toServer.take n) ++ s.toServer.drop n = DELIMITER.frames pending := by
    rw [List.append_assoc, List.take_append_drop, hstream hlink]
  obtain ⟨ms, rest, r, rfl, hsplits, hrest⟩ := Delimiter.splits_of_piece
    (fun m hm => hclean m (List.mem_append_right handled hm)) hpiece
  obtain ⟨done, rs', hdone, -, hend⟩ :=
    serve_spec (H := H) hsplits (Nat.lt_succ_of_le hsplits.length_le)
  have hall := answers_append hanswers hdone
  obtain ⟨rfl, hbuffer⟩ | ⟨cmd, later, rfl, hraise, hbuffer⟩ := hend
  · have hkept : (s.serving H n).buffer = some r := hbuffer
    refine ⟨handled ++ done, rest, rs ++ rs', by rw [List.append_assoc], hall, fun _ => ?_, ?_, ?_⟩
    · simpa only [Session.serveFrame, hkept, Option.getD_some] using hrest
    · simp [Session.serveFrame, hkept]
    · simp [Session.serveFrame, hkept]
  · have hgone : (s.serving H n).buffer = none := hbuffer
    refine ⟨handled ++ done, cmd :: later ++ rest, rs ++ rs', by simp, hall, fun hopen => ?_, ?_,
      fun _ => ⟨cmd, later ++ rest, rfl, hraise⟩⟩
    · simp [Session.serveFrame, hgone] at hopen
    · simp [Session.serveFrame, hgone]

theorem Ordered.step {l : Label} (h : Ordered H emu₀ sent s)
    (hclean : ∀ c ∈ sent, DELIMITER.Clean c) (hstep : step H l s = some s') :
    Ordered H emu₀ (sent ++ commandsOf [l]) s' := by
  cases l with
  | call c =>
    simp only [Emulator.step] at hstep
    split at hstep
    · cases hstep
      exact h.call c
    · cases hstep
  | recv n =>
    obtain ⟨wait, -, hstep⟩ := Option.bind_eq_some_iff.1 hstep
    split at hstep
    · cases hstep
      exact (List.append_nil sent).symm ▸ h.of_server (server_receive _ _ _)
    · cases hstep
  | timeout =>
    obtain ⟨wait, -, rfl⟩ := Option.map_eq_some_iff.1 hstep
    exact (List.append_nil sent).symm ▸ h.of_server rfl
  | eof =>
    simp only [Emulator.step] at hstep
    split at hstep
    · obtain ⟨wait, -, rfl⟩ := Option.map_eq_some_iff.1 hstep
      exact (List.append_nil sent).symm ▸ h.of_server rfl
    · cases hstep
  | frame n =>
    simp only [Emulator.step] at hstep
    split at hstep
    · rename_i hlink
      split at hstep
      · cases hstep
        exact (List.append_nil sent).symm ▸ h.accept hlink
      · cases hstep
    · rename_i hlink
      split at hstep
      · cases hstep
        exact (List.append_nil sent).symm ▸ h.serveFrame hclean (by rw [hlink]; decide) n
      · cases hstep
    · cases hstep
  | key k =>
    cases hstep
    refine (List.append_nil sent).symm ▸ h.of_server ?_
    split <;> rfl

/-- In every run, whatever the client reads and whatever keys are pressed, the script runs the
commands in the order in which they were sent, and each of them once, up to one at which it
raises. -/
theorem run_ordered {ls : List Label} (hclean : ∀ c ∈ commandsOf ls, DELIMITER.Clean c)
    (h : run H ls (start emu₀) = some s) : Ordered H emu₀ (commandsOf ls) s := by
  suffices hgeneral : ∀ {sent s₀}, Ordered H emu₀ sent s₀ →
      (∀ c ∈ sent ++ commandsOf ls, DELIMITER.Clean c) → run H ls s₀ = some s →
        Ordered H emu₀ (sent ++ commandsOf ls) s from
    hgeneral ⟨[], [], [], rfl, rfl, fun _ => rfl, fun _ => rfl, fun hlink => by cases hlink⟩ hclean h
  clear h hclean
  induction ls with
  | nil =>
    intro sent s₀ h₀ _ h
    cases h
    exact (List.append_nil sent).symm ▸ h₀
  | cons l ls ih =>
    intro sent s₀ h₀ hclean h
    obtain ⟨s₁, hstep, hrun⟩ := Option.bind_eq_some_iff.1 h
    have hsplit : sent ++ commandsOf (l :: ls) = sent ++ commandsOf [l] ++ commandsOf ls := by
      rw [List.append_assoc, commandsOf, commandsOf, commandsOf, ← List.filterMap_append]
      rfl
    rw [hsplit] at hclean ⊢
    have hsent : ∀ c ∈ sent, DELIMITER.Clean c := fun c hc =>
      hclean c (List.mem_append_left _ (List.mem_append_left _ hc))
    exact ih (h₀.step hsent hstep) hclean hrun

def keyCounter : Emu Nat where
  memory _ :=
    { read8 := fun address => if address = PARTY_COUNT_ADDR then 1 else CHAR_TERMINATOR
      read16 := fun _ => 20
      read32 := fun _ => 0 }
  screenshot _ emu := emu
  addKey _ emu := emu + 1
  clearKey _ emu := emu
  runFrame _ := none
  loadStateFile _ emu := (false, emu)
  saveStateFile _ emu := (true, emu)

def impatient : List Label :=
  [.call (.command (encode "addkey a")), .frame 0, .frame 10, .key .l, .frame 5, .recv 7,
    .timeout, .call (.command (encode "addkey")), .frame 13, .eof,
    .call (.command (encode "readparty"))]

theorem impatient_ordered : ∃ s, s.emu = 1 ∧ s.link = .closed ∧
    Ordered (commandHandler keyCounter) 0
      [encode "addkey a", encode "addkey", encode "readparty"] s := by
  have hrun : (run (commandHandler keyCounter) impatient (start 0)).map
      (fun s => (s.emu, s.link)) = some (1, .closed) := by
    decide +kernel
  obtain ⟨s, hs, hend⟩ := Option.map_eq_some_iff.1 hrun
  obtain ⟨hemu, hlink⟩ := Prod.mk.inj hend
  exact ⟨s, hemu, hlink, run_ordered (by decide +kernel) hs⟩

end Ordered

end NuzlockeSolver.Emulator
