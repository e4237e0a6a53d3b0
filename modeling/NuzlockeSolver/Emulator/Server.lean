import NuzlockeSolver.Emulator.Lua
import NuzlockeSolver.Emulator.Wire
import NuzlockeSolver.Framing

/-!
# The emulator's script

The script reads commands from a stream, runs them on the emulator and answers each with one
response. Every response is one frame, whatever the command was and whatever the memory holds.
-/

namespace NuzlockeSolver.Emulator

def encode (text : String) : List UInt8 := text.toUTF8.data.toList

def decode (bytes : List UInt8) : Option String := String.fromUTF8? ⟨bytes.toArray⟩

theorem decode_encode (text : String) : decode (encode text) = some text := by
  have hbytes : (⟨(encode text).toArray⟩ : ByteArray) = text.toUTF8 := by simp [encode]
  rw [decode, hbytes, String.fromUTF8?]
  exact dif_pos text.isValidUTF8

theorem encode_append (s t : String) : encode (s ++ t) = encode s ++ encode t := by
  simp [encode]

theorem encode_ofList (cs : List Char) :
    encode (String.ofList cs) = cs.flatMap String.utf8EncodeChar := by
  simp [encode, List.utf8Encode]

theorem ne_ofNat {n : Nat} (h : 128 ≤ n) (hn : n < 256) : (60 : UInt8) ≠ UInt8.ofNat n := by
  intro heq
  have hnat := congrArg UInt8.toNat heq
  rw [UInt8.toNat_ofNat', Nat.mod_eq_of_lt hn] at hnat
  change 60 = n at hnat
  omega

theorem eq_of_less_mem {c : Char} (h : (60 : UInt8) ∈ String.utf8EncodeChar c) : c = '<' := by
  unfold String.utf8EncodeChar at h
  dsimp only at h
  split at h
  · have hnat := congrArg UInt8.toNat (List.mem_singleton.1 h)
    rw [UInt8.toNat_ofNat'] at hnat
    have hval : c.val.toNat = 60 := by
      change 60 = c.val.toNat % 256 at hnat
      omega
    exact Char.ext (UInt32.toNat_inj.1 hval)
  -- every byte of a longer encoding has its high bit set
  all_goals exfalso
  all_goals try split at h
  all_goals try split at h
  all_goals simp only [List.mem_cons, List.not_mem_nil, or_false] at h
  · obtain h | h := h
    · exact ne_ofNat (by omega) (by omega) h
    · exact ne_ofNat (by omega) (by omega) h
  · obtain h | h | h := h
    · exact ne_ofNat (by omega) (by omega) h
    · exact ne_ofNat (by omega) (by omega) h
    · exact ne_ofNat (by omega) (by omega) h
  · obtain h | h | h | h := h
    · exact ne_ofNat (by omega) (by omega) h
    · exact ne_ofNat (by omega) (by omega) h
    · exact ne_ofNat (by omega) (by omega) h
    · exact ne_ofNat (by omega) (by omega) h

theorem less_notMem_encode {text : String} (h : '<' ∉ text.toList) :
    (60 : UInt8) ∉ encode text := by
  intro hmem
  rw [← String.ofList_toList (s := text), encode_ofList] at hmem
  obtain ⟨c, hc, hbyte⟩ := List.mem_flatMap.1 hmem
  exact h (eq_of_less_mem hbyte ▸ hc)

theorem end_notMem : (60 : UInt8) ∉ [124, 69, 78, 68, 124, 62] := by
  decide

/-- The bytes of `<|END|>`. -/
def DELIMITER : Delimiter UInt8 where
  first := 60
  rest := [124, 69, 78, 68, 124, 62]
  notMem := end_notMem

example : DELIMITER.word = encode "<|END|>" := by decide +kernel

def SUCCESS : List UInt8 := encode "<|SUCCESS|>"
def ERROR_PFX : List UInt8 := encode "<|ERROR|>"
def EVENT_PFX : List UInt8 := encode "<|EVENT|>"

def success (payload : List UInt8) : List UInt8 := SUCCESS ++ payload ++ DELIMITER.word

def error (message : List UInt8) : List UInt8 := ERROR_PFX ++ message ++ DELIMITER.word

/-- The emulator's interface, as a frame callback sees it. Running a frame may fail: within a frame
callback it calls the callback again, and the emulator crashes. -/
structure Emu (M : Type) where
  memory : M → Memory
  screenshot : List UInt8 → M → M
  addKey : Nat → M → M
  clearKey : Nat → M → M
  runFrame : M → Option M
  loadStateFile : List UInt8 → M → Bool × M
  saveStateFile : List UInt8 → M → Bool × M

def KEY_MAP : List (String × Nat) :=
  [("a", 0), ("b", 1), ("select", 2), ("start", 3), ("right", 4), ("left", 5), ("up", 6),
    ("down", 7), ("r", 8), ("l", 9)]

def keyOf (name : List UInt8) : Option Nat :=
  (KEY_MAP.find? fun entry => encode entry.1 = lower name).map Prod.snd

section Commands

variable {M : Type} (E : Emu M)

def withKey (args : List UInt8) (emu : M) (f : Nat → Option M) : Option (M × List UInt8) :=
  (firstWord args).bind fun name =>
    match keyOf name with
    | none => some (emu, error (encode "unknown key: " ++ name))
    | some key => (f key).map fun emu => (emu, success [])

def partyAddr (i : Nat) : Nat := PARTY_BASE_ADDR + i * PARTY_MON_SIZE

def boxAddr (b s : Nat) : Nat := STORAGE_BASE_ADDR + (b * BOX_SLOTS + s) * BOX_MON_SIZE

def hasSpeciesAt (mem : Memory) (addr : Nat) : Bool := (mem.read8 (addr + 19) >>> 1) &&& 1 = 1

def partyLines (mem : Memory) : List String :=
  (List.range (mem.read8 PARTY_COUNT_ADDR).toNat).map fun i =>
    serializeMon mem (-1) i (partyAddr i) true

def boxSlots (mem : Memory) : List (Nat × Nat) :=
  ((List.range BOXES).flatMap fun b => (List.range BOX_SLOTS).map fun s => (b, s)).filter fun p =>
    hasSpeciesAt mem (boxAddr p.1 p.2)

def boxLines (mem : Memory) : List String :=
  (boxSlots mem).map fun p => serializeMon mem p.1 p.2 (boxAddr p.1 p.2) false

def framesOn : Nat → M → Option M
  | 0, emu => some emu
  | n + 1, emu => (E.runFrame emu).bind (framesOn n)

def runFrames (args : List UInt8) (emu : M) : Option (M × List UInt8) :=
  match ((firstWord args).bind tonumber).bind LuaNumber.rounds with
  | some n => (framesOn E n emu).map fun emu => (emu, success [])
  | none => some (emu, error (encode "runFrames requires a non-negative integer"))

/-- What `readbox` answers. -/
def readBox (mem : Memory) (args : List UInt8) : List UInt8 :=
  match twoNumbers args with
  | none => error (encode "readbox requires two integers: B S")
  | some (b, s) =>
    if BOXES ≤ b ∨ BOX_SLOTS ≤ s then error (encode "readbox out of range")
    else if hasSpeciesAt mem (boxAddr b s) then
      success (encode (serializeMon mem b s (boxAddr b s) false))
    else success []

def withPath (args : List UInt8) (emu : M) (command call : String)
    (f : List UInt8 → M → Bool × M) : M × List UInt8 :=
  let path := trim args
  if path = [] then (emu, error (encode (command ++ " requires a file path")))
  else
    let r := f path emu
    (r.2, if r.1 then success [] else error (encode (call ++ " failed for: ") ++ path))

/-- The command `cmd`; `none` where the script raises or the emulator crashes. -/
def dispatch (emu : M) (cmd args : List UInt8) : Option (M × List UInt8) :=
  if cmd = encode "screenshot" then some (E.screenshot (trim args) emu, success [])
  else if cmd = encode "addkey" then withKey args emu fun key => some (E.addKey key emu)
  else if cmd = encode "clearkey" then withKey args emu fun key => some (E.clearKey key emu)
  else if cmd = encode "tap" then
    withKey args emu fun key => (E.runFrame (E.addKey key emu)).map (E.clearKey key)
  else if cmd = encode "runframes" then runFrames E args emu
  else if cmd = encode "readparty" then
    some (emu, success (encode (joinLines (partyLines (E.memory emu)))))
  else if cmd = encode "readbox" then some (emu, readBox (E.memory emu) args)
  else if cmd = encode "readallboxes" then
    some (emu, success (encode (joinLines (boxLines (E.memory emu)))))
  else if cmd = encode "loadstate" then
    some (withPath args emu "loadstate" "loadStateFile" E.loadStateFile)
  else if cmd = encode "savestate" then
    some (withPath args emu "savestate" "saveStateFile" E.saveStateFile)
  else some (emu, error (encode "unknown command: " ++ cmd))

def handleCommand (emu : M) (line : List UInt8) : Option (M × List UInt8) :=
  let word := line.takeWhile fun b => !isSpace b
  let args := (line.dropWhile fun b => !isSpace b).dropWhile isSpace
  if word = [] then some (emu, error (encode "empty command"))
  else dispatch E emu (lower word) args

end Commands

theorem encode_success : SUCCESS = 60 :: [124, 83, 85, 67, 67, 69, 83, 83, 124, 62] := by
  decide +kernel

theorem encode_error : ERROR_PFX = 60 :: [124, 69, 82, 82, 79, 82, 124, 62] := by
  decide +kernel

theorem clean_append {x m : List UInt8} (hx : (60 : UInt8) ∉ x) (h : DELIMITER.Clean m) :
    DELIMITER.Clean (x ++ m) := by
  induction x with
  | nil => exact h
  | cons b x ih =>
    refine (ih fun hmem => hx (List.mem_cons_of_mem b hmem)).cons fun hword => ?_
    obtain ⟨hb, -⟩ := List.cons_prefix_cons.1 hword
    exact hx (List.mem_cons.2 (.inl hb))

theorem clean_success {payload : List UInt8} (h : DELIMITER.Clean payload) :
    DELIMITER.Clean (SUCCESS ++ payload) := by
  rw [encode_success, List.cons_append]
  refine (clean_append (by decide) h).cons fun hword => ?_
  simp [Delimiter.word, DELIMITER] at hword

theorem clean_error {message : List UInt8} (h : DELIMITER.Clean message) :
    DELIMITER.Clean (ERROR_PFX ++ message) := by
  rw [encode_error, List.cons_append]
  refine (clean_append (by decide) h).cons fun hword => ?_
  simp [Delimiter.word, DELIMITER] at hword

def Framed (response : List UInt8) : Prop :=
  ∃ raw, DELIMITER.Clean raw ∧ (SUCCESS <+: raw ∨ ERROR_PFX <+: raw) ∧
    response = raw ++ DELIMITER.word

theorem framed_success {payload : List UInt8} (h : DELIMITER.Clean payload) :
    Framed (success payload) :=
  ⟨SUCCESS ++ payload, clean_success h, .inl (List.prefix_append _ _), rfl⟩

theorem framed_error {message : List UInt8} (h : DELIMITER.Clean message) :
    Framed (error message) :=
  ⟨ERROR_PFX ++ message, clean_error h, .inr (List.prefix_append _ _), rfl⟩

theorem clean_encode {text : String} (h : '<' ∉ text.toList) : DELIMITER.Clean (encode text) :=
  Delimiter.clean_of_notMem (less_notMem_encode h)

theorem less_notMem_joinLines {lines : List String} (h : ∀ line ∈ lines, '<' ∉ line.toList) :
    '<' ∉ (joinLines lines).toList := by
  intro hc
  obtain hsep | ⟨line, hline, hc⟩ := mem_intercalate hc
  · exact absurd hsep (by decide)
  · exact h line hline hc

theorem less_notMem_partyLines (mem : Memory) : ∀ line ∈ partyLines mem, '<' ∉ line.toList := by
  intro line hline
  obtain ⟨i, -, rfl⟩ := List.mem_map.1 hline
  exact fun hc => (chars_serializeMon hc).2 rfl

theorem less_notMem_boxLines (mem : Memory) : ∀ line ∈ boxLines mem, '<' ∉ line.toList := by
  intro line hline
  obtain ⟨p, -, rfl⟩ := List.mem_map.1 hline
  exact fun hc => (chars_serializeMon hc).2 rfl

theorem clean_lower (bytes : List UInt8) : DELIMITER.Clean (lower bytes) := by
  intro hword
  have hmem : (69 : UInt8) ∈ lower bytes := hword.subset (by decide)
  obtain ⟨b, -, hb⟩ := List.mem_map.1 hmem
  split at hb
  · rename_i hupper
    have hrange : 65 ≤ b.toNat ∧ b.toNat ≤ 90 := by
      simpa [UInt8.le_iff_toNat_le] using hupper
    have hnat := congrArg UInt8.toNat hb
    rw [UInt8.toNat_add] at hnat
    change (b.toNat + 32) % 256 = 69 at hnat
    omega
  · rename_i hother
    rw [hb] at hother
    exact absurd rfl hother

theorem isInfix_firstWord {args word : List UInt8} (h : firstWord args = some word) :
    word <:+: args := by
  unfold firstWord at h
  dsimp only at h
  split at h
  · cases h
  · cases h
    exact (List.takeWhile_prefix _).isInfix.trans (List.dropWhile_suffix _).isInfix

theorem isInfix_trim (args : List UInt8) : trim args <:+: args := by
  have hend : trim args <+: args.dropWhile isSpace := by
    rw [trim, ← List.reverse_suffix, List.reverse_reverse]
    exact List.dropWhile_suffix _
  exact hend.isInfix.trans (List.dropWhile_suffix _).isInfix

section Framed

variable {M : Type} {E : Emu M} {emu emu' : M} {line response : List UInt8}

theorem framed_withKey {args : List UInt8} {f : Nat → Option M} (hargs : DELIMITER.Clean args)
    (h : withKey args emu f = some (emu', response)) : Framed response := by
  obtain ⟨name, hname, h⟩ := Option.bind_eq_some_iff.1 h
  split at h
  · cases h
    exact framed_error (clean_append (less_notMem_encode (by decide))
      (hargs.of_infix (isInfix_firstWord hname)))
  · obtain ⟨_, -, h⟩ := Option.map_eq_some_iff.1 h
    cases h
    exact framed_success Delimiter.clean_nil

theorem framed_fixed {text : String} (h : '<' ∉ text.toList) : Framed (error (encode text)) :=
  framed_error (clean_encode h)

theorem framed_runFrames {args : List UInt8} (h : runFrames E args emu = some (emu', response)) :
    Framed response := by
  unfold runFrames at h
  split at h
  · obtain ⟨_, -, h⟩ := Option.map_eq_some_iff.1 h
    cases h
    exact framed_success Delimiter.clean_nil
  · cases h
    exact framed_fixed (by decide)

theorem framed_readBox (mem : Memory) (args : List UInt8) : Framed (readBox mem args) := by
  unfold readBox
  split
  · exact framed_fixed (by decide)
  split
  · exact framed_fixed (by decide)
  split
  · exact framed_success (clean_encode fun hc => (chars_serializeMon hc).2 rfl)
  · exact framed_success Delimiter.clean_nil

theorem framed_withPath {args : List UInt8} {command call : String}
    {f : List UInt8 → M → Bool × M} (hargs : DELIMITER.Clean args)
    (hcommand : '<' ∉ command.toList) (hcall : '<' ∉ call.toList) :
    Framed (withPath args emu command call f).2 := by
  have hless {text tail : String} (htext : '<' ∉ text.toList) (htail : '<' ∉ tail.toList) :
      '<' ∉ (text ++ tail).toList := by
    rw [String.toList_append, List.mem_append]
    exact not_or.2 ⟨htext, htail⟩
  unfold withPath
  dsimp only
  split
  · exact framed_fixed (hless hcommand (by decide))
  dsimp only
  split
  · exact framed_success Delimiter.clean_nil
  · exact framed_error (clean_append (less_notMem_encode (hless hcall (by decide)))
      (hargs.of_infix (isInfix_trim args)))

theorem framed_of_eq {r : M × List UInt8} (hr : Framed r.2) (h : some r = some (emu', response)) :
    Framed response := by
  rw [Option.some.inj h] at hr
  exact hr

theorem framed_dispatch {cmd args : List UInt8} (hcmd : DELIMITER.Clean cmd)
    (hargs : DELIMITER.Clean args) (h : dispatch E emu cmd args = some (emu', response)) :
    Framed response := by
  unfold dispatch at h
  split at h
  · cases h
    exact framed_success Delimiter.clean_nil
  split at h
  · exact framed_withKey hargs h
  split at h
  · exact framed_withKey hargs h
  split at h
  · exact framed_withKey hargs h
  split at h
  · exact framed_runFrames h
  split at h
  · cases h
    exact framed_success (clean_encode (less_notMem_joinLines (less_notMem_partyLines _)))
  split at h
  · cases h
    exact framed_readBox _ args
  split at h
  · cases h
    exact framed_success (clean_encode (less_notMem_joinLines (less_notMem_boxLines _)))
  split at h
  · exact framed_of_eq (framed_withPath hargs (by decide) (by decide)) h
  split at h
  · exact framed_of_eq (framed_withPath hargs (by decide) (by decide)) h
  · cases h
    exact framed_error (clean_append (less_notMem_encode (by decide)) hcmd)

theorem framed_handleCommand (hline : DELIMITER.Clean line)
    (h : handleCommand E emu line = some (emu', response)) : Framed response := by
  have hargs : DELIMITER.Clean ((line.dropWhile fun b => !isSpace b).dropWhile isSpace) :=
    hline.of_infix ((List.dropWhile_suffix _).trans (List.dropWhile_suffix _)).isInfix
  unfold handleCommand at h
  dsimp only at h
  split at h
  · cases h
    exact framed_fixed (by decide)
  · exact framed_dispatch (clean_lower _) hargs h

end Framed

end NuzlockeSolver.Emulator
