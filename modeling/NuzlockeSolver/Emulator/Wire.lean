import Mathlib.Data.List.Basic
import NuzlockeSolver.Basic

/-!
# Pokémon on the wire

The emulator's script reads a Pokémon out of the game's memory and writes it as one line of fifty
fields; the client reads the line back into a snapshot. Whatever the memory holds, the snapshot is
the Pokémon that was read: no name can break a line or a field.
-/

namespace NuzlockeSolver.Emulator

structure Memory where
  read8 : Nat → UInt8
  read16 : Nat → UInt16
  read32 : Nat → UInt32

def PARTY_COUNT_ADDR : Nat := 0x2023a95
def PARTY_BASE_ADDR : Nat := 0x2023a98
def STORAGE_BASE_ADDR : Nat := 0x202884c
def BOX_MON_SIZE : Nat := 80
def PARTY_MON_SIZE : Nat := 100
def BOXES : Nat := 14
def BOX_SLOTS : Nat := 30
def NAME_LEN : Nat := 10
def CHAR_TERMINATOR : UInt8 := 0xFF

def CHARMAP : List String := [
  " ", "À", "Á", "Â", "Ç", "È", "É", "Ê", "Ë", "Ì", "こ", "Î", "Ï", "Ò", "Ó", "Ô",
  "Œ", "Ù", "Ú", "Û", "Ñ", "ß", "à", "á", "ね", "ç", "è", "é", "ê", "ë", "ì", "ま",
  "î", "ï", "ò", "ó", "ô", "œ", "ù", "ú", "û", "ñ", "º", "ª", "▯", "&", "+", "あ",
  "ぃ", "ぅ", "ぇ", "ぉ", "v", "=", "ょ", "が", "ぎ", "ぐ", "げ", "ご", "ざ", "じ", "ず", "ぜ",
  "ぞ", "だ", "ぢ", "づ", "で", "ど", "ば", "び", "ぶ", "べ", "ぼ", "ぱ", "ぴ", "ぷ", "ぺ", "ぽ",
  "っ", "¿", "¡", "Pk", "Mn", "Po", "Ké", "▯", "▯", "▯", "Í", "%", "(", ")", "セ", "ソ",
  "タ", "チ", "ツ", "テ", "ト", "ナ", "ニ", "ヌ", "â", "ノ", "ハ", "ヒ", "フ", "ヘ", "ホ", "í",
  "ミ", "ム", "メ", "モ", "ヤ", "ユ", "ヨ", "ラ", "リ", "⬆", "⬇", "⬅", "➡", "ヲ", "ン", "ァ",
  "ィ", "ゥ", "ェ", "ォ", "ャ", "ュ", "ョ", "ガ", "ギ", "グ", "ゲ", "ゴ", "ザ", "ジ", "ズ", "ゼ",
  "ゾ", "ダ", "ヂ", "ヅ", "デ", "ド", "バ", "ビ", "ブ", "ベ", "ボ", "パ", "ピ", "プ", "ペ", "ポ",
  "ッ", "0", "1", "2", "3", "4", "5", "6", "7", "8", "9", "!", "?", ".", "-", "・",
  "…", "“", "”", "‘", "’", "♂", "♀", "$", ",", "×", "/", "A", "B", "C", "D", "E",
  "F", "G", "H", "I", "J", "K", "L", "M", "N", "O", "P", "Q", "R", "S", "T", "U",
  "V", "W", "X", "Y", "Z", "a", "b", "c", "d", "e", "f", "g", "h", "i", "j", "k",
  "l", "m", "n", "o", "p", "q", "r", "s", "t", "u", "v", "w", "x", "y", "z", "▶",
  ":", "Ä", "Ö", "Ü", "ä", "ö", "ü", "⬆", "⬇", "⬅", "▯", "▯", "▯", "▯", "▯", ""
]

def SUBSTRUCT_ORDER : List (Nat × Nat × Nat × Nat) := [
  (0, 1, 2, 3), (0, 1, 3, 2), (0, 2, 1, 3), (0, 3, 1, 2), (0, 2, 3, 1), (0, 3, 2, 1),
  (1, 0, 2, 3), (1, 0, 3, 2), (2, 0, 1, 3), (3, 0, 1, 2), (2, 0, 3, 1), (3, 0, 2, 1),
  (1, 2, 0, 3), (1, 3, 0, 2), (2, 1, 0, 3), (3, 1, 0, 2), (2, 3, 0, 1), (3, 2, 0, 1),
  (1, 2, 3, 0), (1, 3, 2, 0), (2, 1, 3, 0), (3, 1, 2, 0), (2, 3, 1, 0), (3, 2, 1, 0)
]

variable (mem : Memory)

/-- A name of at most `length` characters. -/
def decodeName (address : Nat) : Nat → String
  | 0 => ""
  | length + 1 =>
    if mem.read8 address = CHAR_TERMINATOR then ""
    else (CHARMAP[(mem.read8 address).toNat]?).getD "" ++ decodeName (address + 1) length

structure Substruct where
  w1 : UInt32
  w2 : UInt32
  w3 : UInt32

def readSubstruct (base pos : Nat) (key : UInt32) : Substruct where
  w1 := mem.read32 (base + 32 + pos * 12 + 0) ^^^ key
  w2 := mem.read32 (base + 32 + pos * 12 + 4) ^^^ key
  w3 := mem.read32 (base + 32 + pos * 12 + 8) ^^^ key

structure MonData where
  personality : UInt32
  otId : UInt32
  nickname : String
  otName : String
  flagsByte : UInt8
  ssG : Substruct
  ssA : Substruct
  ssE : Substruct
  ssM : Substruct

def readMon (baseAddr : Nat) : MonData :=
  let personality := mem.read32 (baseAddr + 0)
  let otId := mem.read32 (baseAddr + 4)
  let key := personality ^^^ otId
  let order := SUBSTRUCT_ORDER.getD (personality % 24).toNat (0, 1, 2, 3)
  { personality := personality
    otId := otId
    nickname := decodeName mem (baseAddr + 8) NAME_LEN
    otName := decodeName mem (baseAddr + 20) NAME_LEN
    flagsByte := mem.read8 (baseAddr + 19)
    ssG := readSubstruct mem baseAddr order.1 key
    ssA := readSubstruct mem baseAddr order.2.1 key
    ssE := readSubstruct mem baseAddr order.2.2.1 key
    ssM := readSubstruct mem baseAddr order.2.2.2 key }

namespace MonData

variable (m : MonData)

def isBadEgg : UInt8 := m.flagsByte &&& 1
def hasSpecies : UInt8 := (m.flagsByte >>> 1) &&& 1
def isEgg : UInt8 := (m.flagsByte >>> 2) &&& 1
def species : UInt32 := m.ssG.w1 &&& 0xFFFF
def heldItem : UInt32 := (m.ssG.w1 >>> 16) &&& 0xFFFF
def experience : UInt32 := m.ssG.w2
def ppBonuses : UInt32 := m.ssG.w3 &&& 0xFF
def friendship : UInt32 := (m.ssG.w3 >>> 8) &&& 0xFF
def nature : UInt32 := m.personality % 25
def move0 : UInt32 := m.ssA.w1 &&& 0xFFFF
def move1 : UInt32 := (m.ssA.w1 >>> 16) &&& 0xFFFF
def move2 : UInt32 := m.ssA.w2 &&& 0xFFFF
def move3 : UInt32 := (m.ssA.w2 >>> 16) &&& 0xFFFF
def pp0 : UInt32 := m.ssA.w3 &&& 0xFF
def pp1 : UInt32 := (m.ssA.w3 >>> 8) &&& 0xFF
def pp2 : UInt32 := (m.ssA.w3 >>> 16) &&& 0xFF
def pp3 : UInt32 := (m.ssA.w3 >>> 24) &&& 0xFF
def hpEv : UInt32 := m.ssE.w1 &&& 0xFF
def atkEv : UInt32 := (m.ssE.w1 >>> 8) &&& 0xFF
def defEv : UInt32 := (m.ssE.w1 >>> 16) &&& 0xFF
def speEv : UInt32 := (m.ssE.w1 >>> 24) &&& 0xFF
def spaEv : UInt32 := m.ssE.w2 &&& 0xFF
def spdEv : UInt32 := (m.ssE.w2 >>> 8) &&& 0xFF
def pokerus : UInt32 := m.ssM.w1 &&& 0xFF
def metLocation : UInt32 := (m.ssM.w1 >>> 8) &&& 0xFF
def metFlags : UInt32 := m.ssM.w1 >>> 16
def metLevel : UInt32 := m.metFlags &&& 0x7F
def metGame : UInt32 := (m.metFlags >>> 7) &&& 0xF
def pokeball : UInt32 := (m.metFlags >>> 11) &&& 0xF
def hpIv : UInt32 := (m.ssM.w2 >>> 1) &&& 0x1F
def atkIv : UInt32 := (m.ssM.w2 >>> 6) &&& 0x1F
def defIv : UInt32 := (m.ssM.w2 >>> 11) &&& 0x1F
def speIv : UInt32 := (m.ssM.w2 >>> 16) &&& 0x1F
def spaIv : UInt32 := (m.ssM.w2 >>> 21) &&& 0x1F
def spdIv : UInt32 := (m.ssM.w2 >>> 26) &&& 0x1F
def altAbility : UInt32 := (m.ssM.w3 >>> 29) &&& 0x3

def fields (boxIdx : Int) (slotIdx : Nat) : List String :=
  [toString boxIdx, toString slotIdx, toString m.species.toNat, m.nickname, m.otName,
    toString m.otId.toNat, toString m.personality.toNat, toString m.isEgg.toNat,
    toString m.isBadEgg.toNat, toString m.hasSpecies.toNat, toString m.heldItem.toNat,
    toString m.experience.toNat, toString m.friendship.toNat, toString m.ppBonuses.toNat,
    toString m.move0.toNat, toString m.move1.toNat, toString m.move2.toNat,
    toString m.move3.toNat, toString m.pp0.toNat, toString m.pp1.toNat, toString m.pp2.toNat,
    toString m.pp3.toNat, toString m.hpEv.toNat, toString m.atkEv.toNat, toString m.defEv.toNat,
    toString m.speEv.toNat, toString m.spaEv.toNat, toString m.spdEv.toNat,
    toString m.hpIv.toNat, toString m.atkIv.toNat, toString m.defIv.toNat, toString m.speIv.toNat,
    toString m.spaIv.toNat, toString m.spdIv.toNat, toString m.nature.toNat,
    toString m.altAbility.toNat, toString m.pokerus.toNat, toString m.pokeball.toNat,
    toString m.metLocation.toNat, toString m.metLevel.toNat, toString m.metGame.toNat]

end MonData

structure PartyStats where
  level : Nat
  currentHp : Nat
  maxHp : Nat
  status : Nat
  attack : Nat
  defense : Nat
  speed : Nat
  spAttack : Nat
  spDefense : Nat

def readStats (baseAddr : Nat) : PartyStats where
  level := (mem.read8 (baseAddr + 84)).toNat
  currentHp := (mem.read16 (baseAddr + 86)).toNat
  maxHp := (mem.read16 (baseAddr + 88)).toNat
  status := (mem.read32 (baseAddr + 80)).toNat
  attack := (mem.read16 (baseAddr + 90)).toNat
  defense := (mem.read16 (baseAddr + 92)).toNat
  speed := (mem.read16 (baseAddr + 94)).toNat
  spAttack := (mem.read16 (baseAddr + 96)).toNat
  spDefense := (mem.read16 (baseAddr + 98)).toNat

def PartyStats.fields (p : PartyStats) : List String :=
  [toString p.level, toString p.currentHp, toString p.maxHp, toString p.status,
    toString p.attack, toString p.defense, toString p.speed, toString p.spAttack,
    toString p.spDefense]

def lineFields (boxIdx : Int) (slotIdx baseAddr : Nat) (isParty : Bool) : List String :=
  (readMon mem baseAddr).fields boxIdx slotIdx ++
    if isParty then (readStats mem baseAddr).fields else List.replicate 9 ""

def serializeMon (boxIdx : Int) (slotIdx baseAddr : Nat) (isParty : Bool) : String :=
  "|".intercalate (lineFields mem boxIdx slotIdx baseAddr isParty)

inductive ValueError where
  | fieldCount (got : Nat)
  | literal (text : String)
  deriving DecidableEq, Repr

def NFIELDS : Nat := 50

structure PokemonSnapshot where
  box : Int
  slot : Int
  species : Int
  nickname : String
  otName : String
  otId : Int
  personality : Int
  isEgg : Bool
  isBadEgg : Bool
  hasSpecies : Bool
  heldItem : Int
  experience : Int
  friendship : Int
  ppBonuses : Int
  moves : Int × Int × Int × Int
  pp : Int × Int × Int × Int
  hpEv : Int
  atkEv : Int
  defEv : Int
  speEv : Int
  spaEv : Int
  spdEv : Int
  hpIv : Int
  atkIv : Int
  defIv : Int
  speIv : Int
  spaIv : Int
  spdIv : Int
  nature : Int
  altAbility : Int
  pokerus : Int
  pokeball : Int
  metLocation : Int
  metLevel : Int
  metGame : Int
  level : Option Int
  currentHp : Option Int
  maxHp : Option Int
  status : Option Int
  attack : Option Int
  defense : Option Int
  speed : Option Int
  spAttack : Option Int
  spDefense : Option Int
  deriving DecidableEq, Repr

def split (sep : Char) (text : String) : List String :=
  (text.toList.splitOn sep).map String.ofList

def DECIMAL_ZEROS : List Nat :=
  [0x30, 0x660, 0x6f0, 0x7c0, 0x966, 0x9e6, 0xa66, 0xae6, 0xb66, 0xbe6, 0xc66, 0xce6, 0xd66, 0xde6,
    0xe50, 0xed0, 0xf20, 0x1040, 0x1090, 0x17e0, 0x1810, 0x1946, 0x19d0, 0x1a80, 0x1a90, 0x1b50,
    0x1bb0, 0x1c40, 0x1c50, 0xa620, 0xa8d0, 0xa900, 0xa9d0, 0xa9f0, 0xaa50, 0xabf0, 0xff10,
    0x104a0, 0x10d30, 0x11066, 0x110f0, 0x11136, 0x111d0, 0x112f0, 0x11450, 0x114d0, 0x11650,
    0x116c0, 0x11730, 0x118e0, 0x11950, 0x11c50, 0x11d50, 0x11da0, 0x16a60, 0x16ac0, 0x16b50,
    0x1d7ce, 0x1d7d8, 0x1d7e2, 0x1d7ec, 0x1d7f6, 0x1e140, 0x1e2f0, 0x1e950, 0x1fbf0]

def decimalDigit (c : Char) : Option Char :=
  (DECIMAL_ZEROS.find? fun z => z ≤ c.toNat ∧ c.toNat < z + 10).map fun z =>
    Char.ofNat (48 + (c.toNat - z))

def digits : List Char → Option (List Char)
  | [] => none
  | [c] => (decimalDigit c).map ([·])
  | c :: '_' :: cs => (decimalDigit c).bind fun d => (digits cs).map (d :: ·)
  | c :: cs => (decimalDigit c).bind fun d => (digits cs).map (d :: ·)

def natOf (cs : List Char) : Option Nat := (digits cs).map (Nat.ofDigitChars 10 · 0)

def signed : List Char → Option Int
  | '-' :: cs => (natOf cs).map fun n => -(n : Int)
  | '+' :: cs => (natOf cs).map Int.ofNat
  | cs => (natOf cs).map Int.ofNat

/-- Python's `int` of a text. -/
def int (text : String) : Except ValueError Int :=
  match signed (strip text.toList) with
  | some i => .ok i
  | none => .error (.literal text)

def opt (text : String) : Except ValueError (Option Int) :=
  if text = "" then .ok none else (int text).map some

def PokemonSnapshot.fromWire (line : String) : Except ValueError PokemonSnapshot :=
  let parts := split '|' line
  if parts.length ≠ NFIELDS then .error (.fieldCount parts.length)
  else do
    let part (i : Nat) : String := parts.getD i ""
    return {
      box := ← int (part 0)
      slot := ← int (part 1)
      species := ← int (part 2)
      nickname := part 3
      otName := part 4
      otId := ← int (part 5)
      personality := ← int (part 6)
      isEgg := (← int (part 7)) != 0
      isBadEgg := (← int (part 8)) != 0
      hasSpecies := (← int (part 9)) != 0
      heldItem := ← int (part 10)
      experience := ← int (part 11)
      friendship := ← int (part 12)
      ppBonuses := ← int (part 13)
      moves := (← int (part 14), ← int (part 15), ← int (part 16), ← int (part 17))
      pp := (← int (part 18), ← int (part 19), ← int (part 20), ← int (part 21))
      hpEv := ← int (part 22)
      atkEv := ← int (part 23)
      defEv := ← int (part 24)
      speEv := ← int (part 25)
      spaEv := ← int (part 26)
      spdEv := ← int (part 27)
      hpIv := ← int (part 28)
      atkIv := ← int (part 29)
      defIv := ← int (part 30)
      speIv := ← int (part 31)
      spaIv := ← int (part 32)
      spdIv := ← int (part 33)
      nature := ← int (part 34)
      altAbility := ← int (part 35)
      pokerus := ← int (part 36)
      pokeball := ← int (part 37)
      metLocation := ← int (part 38)
      metLevel := ← int (part 39)
      metGame := ← int (part 40)
      level := ← opt (part 41)
      currentHp := ← opt (part 42)
      maxHp := ← opt (part 43)
      status := ← opt (part 44)
      attack := ← opt (part 45)
      defense := ← opt (part 46)
      speed := ← opt (part 47)
      spAttack := ← opt (part 48)
      spDefense := ← opt (part 49) }

def MonData.snapshot (m : MonData) (boxIdx : Int) (slotIdx : Nat) (stats : Option PartyStats) :
    PokemonSnapshot where
  box := boxIdx
  slot := slotIdx
  species := m.species.toNat
  nickname := m.nickname
  otName := m.otName
  otId := m.otId.toNat
  personality := m.personality.toNat
  isEgg := (m.isEgg.toNat : Int) != 0
  isBadEgg := (m.isBadEgg.toNat : Int) != 0
  hasSpecies := (m.hasSpecies.toNat : Int) != 0
  heldItem := m.heldItem.toNat
  experience := m.experience.toNat
  friendship := m.friendship.toNat
  ppBonuses := m.ppBonuses.toNat
  moves := (m.move0.toNat, m.move1.toNat, m.move2.toNat, m.move3.toNat)
  pp := (m.pp0.toNat, m.pp1.toNat, m.pp2.toNat, m.pp3.toNat)
  hpEv := m.hpEv.toNat
  atkEv := m.atkEv.toNat
  defEv := m.defEv.toNat
  speEv := m.speEv.toNat
  spaEv := m.spaEv.toNat
  spdEv := m.spdEv.toNat
  hpIv := m.hpIv.toNat
  atkIv := m.atkIv.toNat
  defIv := m.defIv.toNat
  speIv := m.speIv.toNat
  spaIv := m.spaIv.toNat
  spdIv := m.spdIv.toNat
  nature := m.nature.toNat
  altAbility := m.altAbility.toNat
  pokerus := m.pokerus.toNat
  pokeball := m.pokeball.toNat
  metLocation := m.metLocation.toNat
  metLevel := m.metLevel.toNat
  metGame := m.metGame.toNat
  level := stats.map fun p => p.level
  currentHp := stats.map fun p => p.currentHp
  maxHp := stats.map fun p => p.maxHp
  status := stats.map fun p => p.status
  attack := stats.map fun p => p.attack
  defense := stats.map fun p => p.defense
  speed := stats.map fun p => p.speed
  spAttack := stats.map fun p => p.spAttack
  spDefense := stats.map fun p => p.spDefense

/-- The Pokémon at an address. -/
def monAt (mem : Memory) (boxIdx : Int) (slotIdx baseAddr : Nat) (isParty : Bool) :
    PokemonSnapshot :=
  (readMon mem baseAddr).snapshot boxIdx slotIdx
    (if isParty then some (readStats mem baseAddr) else none)

theorem decimalDigit_of_isDigit {c : Char} (h : c.isDigit) : decimalDigit c = some c := by
  obtain ⟨hlo, hhi⟩ := Char.isDigit_iff_toNat.1 h
  have hrange : 48 ≤ c.toNat ∧ c.toNat < 48 + 10 := ⟨hlo, Nat.lt_succ_of_le hhi⟩
  have hfind : (DECIMAL_ZEROS.find? fun z => z ≤ c.toNat ∧ c.toNat < z + 10) = some 48 :=
    List.find?_cons_of_pos (by simpa using hrange)
  rw [decimalDigit, hfind, Option.map_some, Nat.add_sub_cancel' hrange.1, Char.ofNat_toNat]

theorem digits_eq_some {cs : List Char} (hne : cs ≠ []) (h : ∀ c ∈ cs, c.isDigit) :
    digits cs = some cs := by
  induction cs using digits.induct with
  | case1 => exact absurd rfl hne
  | case2 c => rw [digits, decimalDigit_of_isDigit (h c List.mem_cons_self), Option.map_some]
  | case3 c cs ih =>
    exact absurd (h '_' (List.mem_cons_of_mem c List.mem_cons_self)) (by decide)
  | case4 c cs hempty hunder ih =>
    rw [digits, decimalDigit_of_isDigit (h c List.mem_cons_self), Option.bind_some,
      ih hempty fun d hd => h d (List.mem_cons_of_mem c hd), Option.map_some]
    · exact hempty
    · exact hunder

theorem not_whitespace_of_isDigit {c : Char} (h : c.isDigit) : whitespace.contains c = false := by
  have hnone : (whitespace.all fun c => !c.isDigit) = true := by decide
  rw [Bool.eq_false_iff]
  intro hc
  have hdigit := List.all_eq_true.1 hnone c (List.contains_iff_mem.1 hc)
  rw [h] at hdigit
  cases hdigit

theorem isDigit_of_mem_toDigits {n : Nat} {c : Char} (h : c ∈ Nat.toDigits 10 n) : c.isDigit :=
  Nat.isDigit_of_mem_toDigits (by decide) (Nat.le_refl 10) h

theorem natOf_toDigits (n : Nat) : natOf (Nat.toDigits 10 n) = some n := by
  have hdigits : digits (Nat.toDigits 10 n) = some (Nat.toDigits 10 n) :=
    digits_eq_some Nat.toDigits_ne_nil fun c hc => isDigit_of_mem_toDigits hc
  rw [natOf, hdigits, Option.map_some, Nat.ofDigitChars_ten_toDigits]

theorem signed_toDigits (n : Nat) : signed (Nat.toDigits 10 n) = some (n : Int) := by
  unfold signed
  split
  · rename_i cs hcs
    have hsign : '-' ∈ Nat.toDigits 10 n := hcs ▸ List.mem_cons_self
    exact absurd (isDigit_of_mem_toDigits hsign) (by decide)
  · rename_i cs hcs
    have hsign : '+' ∈ Nat.toDigits 10 n := hcs ▸ List.mem_cons_self
    exact absurd (isDigit_of_mem_toDigits hsign) (by decide)
  · rw [natOf_toDigits]
    rfl

theorem int_toString_nat (n : Nat) : int (toString n) = .ok (n : Int) := by
  have hstrip : strip (toString n).toList = Nat.toDigits 10 n := by
    rw [Nat.toString_eq_repr, Nat.toList_repr]
    exact strip_eq_self fun c hc => not_whitespace_of_isDigit (isDigit_of_mem_toDigits hc)
  rw [int, hstrip, signed_toDigits]

theorem toList_toString_negSucc (n : Nat) :
    (toString (Int.negSucc n)).toList = '-' :: Nat.toDigits 10 (n + 1) := by
  change ("-" ++ (n + 1).repr).toList = _
  rw [String.toList_append, Nat.toList_repr]
  rfl

theorem int_toString (i : Int) : int (toString i) = .ok i := by
  cases i with
  | ofNat n => exact int_toString_nat n
  | negSucc n =>
    have hstrip : strip (toString (Int.negSucc n)).toList = '-' :: Nat.toDigits 10 (n + 1) := by
      rw [toList_toString_negSucc]
      refine strip_eq_self fun c hc => ?_
      obtain rfl | hc := List.mem_cons.1 hc
      · decide
      · exact not_whitespace_of_isDigit (isDigit_of_mem_toDigits hc)
    rw [int, hstrip, signed, natOf_toDigits]
    rfl

def newline : Char := Char.ofNat 10

def Plain (text : String) : Prop :=
  ∀ c ∈ text.toList, c ≠ '|' ∧ c ≠ newline ∧ c ≠ '<'

theorem plain_append {s t : String} (hs : Plain s) (ht : Plain t) : Plain (s ++ t) := by
  intro c hc
  rw [String.toList_append] at hc
  exact (List.mem_append.1 hc).elim (hs c) (ht c)

theorem plain_empty : Plain "" :=
  fun _ hc => absurd hc List.not_mem_nil

theorem plain_charmap : ∀ ch ∈ CHARMAP, Plain ch := by
  have hall : (CHARMAP.all fun ch => ch.toList.all fun c =>
      c != '|' && (c != newline && c != '<')) = true := by decide +kernel
  intro ch hch c hc
  have hplain := List.all_eq_true.1 (List.all_eq_true.1 hall ch hch) c hc
  simpa only [Bool.and_eq_true, bne_iff_ne] using hplain

theorem plain_decodeName (mem : Memory) (address length : Nat) :
    Plain (decodeName mem address length) := by
  induction length generalizing address with
  | zero => exact plain_empty
  | succ length ih =>
    rw [decodeName]
    split
    · exact plain_empty
    · refine plain_append ?_ (ih (address + 1))
      cases hch : CHARMAP[(mem.read8 address).toNat]? with
      | none => exact plain_empty
      | some ch => exact plain_charmap ch (List.mem_of_getElem? hch)

theorem plain_toDigits (n : Nat) : ∀ c ∈ Nat.toDigits 10 n, c ≠ '|' ∧ c ≠ newline ∧ c ≠ '<' := by
  have hdigit {c d : Char} (hc : c.isDigit) (hd : d.isDigit = false) : c ≠ d := by
    rintro rfl
    rw [hd] at hc
    cases hc
  intro c hc
  have hc := isDigit_of_mem_toDigits hc
  exact ⟨hdigit hc (by decide), hdigit hc (by decide), hdigit hc (by decide)⟩

theorem plain_toString_nat (n : Nat) : Plain (toString n) := by
  intro c hc
  rw [Nat.toString_eq_repr, Nat.toList_repr] at hc
  exact plain_toDigits n c hc

theorem plain_toString (i : Int) : Plain (toString i) := by
  cases i with
  | ofNat n => exact plain_toString_nat n
  | negSucc n =>
    intro c hc
    rw [toList_toString_negSucc] at hc
    obtain rfl | hc := List.mem_cons.1 hc
    · decide
    · exact plain_toDigits _ c hc

theorem split_intercalate {sep : Char} {ls : List String} (h : ∀ l ∈ ls, sep ∉ l.toList)
    (hne : ls ≠ []) : split sep ((String.singleton sep).intercalate ls) = ls := by
  have hlists : ∀ l ∈ ls.map String.toList, sep ∉ l := by
    intro l hl
    obtain ⟨s, hs, rfl⟩ := List.mem_map.1 hl
    exact h s hs
  have hsep : (String.singleton sep).toList = [sep] := by simp
  rw [split, String.toList_intercalate, hsep,
    List.splitOn_intercalate sep hlists (mt List.map_eq_nil_iff.1 hne), List.map_map]
  simp

section Lines

variable (mem : Memory) (boxIdx : Int) (slotIdx baseAddr : Nat) (isParty : Bool)

theorem plain_lineFields :
    ∀ field ∈ lineFields mem boxIdx slotIdx baseAddr isParty, Plain field := by
  have hnick : Plain (readMon mem baseAddr).nickname := plain_decodeName mem _ _
  have hname : Plain (readMon mem baseAddr).otName := plain_decodeName mem _ _
  have hnil : ∀ field ∈ ([] : List String), Plain field :=
    fun _ h => absurd h List.not_mem_nil
  have hmon : ∀ field ∈ (readMon mem baseAddr).fields boxIdx slotIdx, Plain field := by
    simp only [MonData.fields, List.forall_mem_cons, plain_toString, plain_toString_nat, hnick,
      hname, true_and]
    exact hnil
  have hstats : ∀ field ∈ (readStats mem baseAddr).fields, Plain field := by
    simp only [PartyStats.fields, List.forall_mem_cons, plain_toString_nat, true_and]
    exact hnil
  intro field hfield
  obtain hfield | hfield := List.mem_append.1 hfield
  · exact hmon field hfield
  · split at hfield
    · exact hstats field hfield
    · rw [List.eq_of_mem_replicate hfield]
      exact plain_empty

theorem split_serializeMon : split '|' (serializeMon mem boxIdx slotIdx baseAddr isParty) =
    lineFields mem boxIdx slotIdx baseAddr isParty :=
  split_intercalate
    (fun field hfield hc =>
      (plain_lineFields mem boxIdx slotIdx baseAddr isParty field hfield _ hc).1 rfl)
    (List.append_ne_nil_of_left_ne_nil (List.cons_ne_nil _ _) _)

/-- The client reads the Pokémon that the script has read. -/
theorem fromWire_serializeMon :
    PokemonSnapshot.fromWire (serializeMon mem boxIdx slotIdx baseAddr isParty) =
      .ok (monAt mem boxIdx slotIdx baseAddr isParty) := by
  have hopt (n : Nat) : opt (toString n) = .ok (some (n : Int)) := by
    rw [opt, if_neg (Nat.toString_eq_repr ▸ Nat.repr_ne_empty), int_toString_nat]
    rfl
  have hempty : opt "" = .ok none := rfl
  cases isParty with
  | true =>
    simp only [PokemonSnapshot.fromWire, split_serializeMon, lineFields, MonData.fields,
      PartyStats.fields, List.cons_append, List.nil_append, List.getD_cons_zero,
      List.getD_cons_succ, List.length_cons, List.length_nil, NFIELDS, ne_eq, not_true_eq_false,
      if_false, if_true, Nat.reduceAdd, int_toString, int_toString_nat, hopt, ok_bind]
    rfl
  | false =>
    simp only [PokemonSnapshot.fromWire, split_serializeMon, lineFields, MonData.fields,
      List.replicate_succ, List.replicate_zero, Bool.false_eq_true, List.cons_append,
      List.nil_append, List.getD_cons_zero, List.getD_cons_succ, List.length_cons, List.length_nil,
      NFIELDS, ne_eq, not_true_eq_false, if_false, Nat.reduceAdd, int_toString, int_toString_nat,
      hempty, ok_bind]
    rfl

theorem serializeMon_ne_empty : serializeMon mem boxIdx slotIdx baseAddr isParty ≠ "" := by
  intro hempty
  have hsplit := split_serializeMon mem boxIdx slotIdx baseAddr isParty
  have hone : (split '|' "").length = 1 := rfl
  rw [hempty] at hsplit
  rw [hsplit, lineFields, List.length_append] at hone
  simp only [MonData.fields, List.length_cons] at hone
  omega

end Lines

theorem mem_intercalate {sep : String} {ls : List String} {c : Char}
    (h : c ∈ (sep.intercalate ls).toList) : c ∈ sep.toList ∨ ∃ l ∈ ls, c ∈ l.toList := by
  induction ls with
  | nil => exact absurd h (by simp)
  | cons l ls ih =>
    by_cases hls : ls = []
    · rw [hls, String.intercalate_singleton] at h
      exact .inr ⟨l, List.mem_cons_self, h⟩
    rw [String.intercalate_cons_of_ne_nil hls, String.toList_append, String.toList_append,
      List.mem_append, List.mem_append] at h
    obtain (h | h) | h := h
    · exact .inr ⟨l, List.mem_cons_self, h⟩
    · exact .inl h
    · exact (ih h).imp_right fun ⟨l', hl', hc⟩ => ⟨l', List.mem_cons_of_mem l hl', hc⟩

theorem chars_serializeMon {mem : Memory} {boxIdx : Int} {slotIdx baseAddr : Nat} {isParty : Bool}
    {c : Char} (h : c ∈ (serializeMon mem boxIdx slotIdx baseAddr isParty).toList) :
    c ≠ newline ∧ c ≠ '<' := by
  obtain hsep | ⟨field, hfield, hc⟩ := mem_intercalate h
  · have hbar : c = '|' := List.mem_singleton.1 hsep
    rw [hbar]
    decide
  · exact (plain_lineFields mem boxIdx slotIdx baseAddr isParty field hfield c hc).2

def joinLines (lines : List String) : String := "\n".intercalate lines

def parseMons (data : String) : Except ValueError (List PokemonSnapshot) :=
  if data = "" then .ok []
  else ((split newline data).filter (· ≠ "")).mapM PokemonSnapshot.fromWire

theorem parseMons_joinLines {lines : List String}
    (h : ∀ line ∈ lines, newline ∉ line.toList ∧ line ≠ "") :
    parseMons (joinLines lines) = lines.mapM PokemonSnapshot.fromWire := by
  cases lines with
  | nil => rfl
  | cons line lines =>
    have hsplit : split newline (joinLines (line :: lines)) = line :: lines :=
      split_intercalate (fun l hl => (h l hl).1) (List.cons_ne_nil line lines)
    have hfilter : (line :: lines).filter (· ≠ "") = line :: lines :=
      List.filter_eq_self.2 fun l hl => decide_eq_true (h l hl).2
    have hdata : joinLines (line :: lines) ≠ "" := by
      intro hempty
      rw [hempty] at hsplit
      obtain ⟨hline, -⟩ := List.cons.inj hsplit
      exact (h line List.mem_cons_self).2 hline.symm
    rw [parseMons, if_neg hdata, hsplit, hfilter]

theorem parseMons_serialized {α : Type} {mem : Memory} (boxIdx : α → Int)
    (slotIdx baseAddr : α → Nat) (isParty : Bool) (l : List α) :
    parseMons (joinLines (l.map fun a =>
      serializeMon mem (boxIdx a) (slotIdx a) (baseAddr a) isParty)) =
        .ok (l.map fun a => monAt mem (boxIdx a) (slotIdx a) (baseAddr a) isParty) := by
  rw [parseMons_joinLines]
  · exact mapM_except_map fun a _ => fromWire_serializeMon mem _ _ _ isParty
  · intro line hline
    obtain ⟨a, -, rfl⟩ := List.mem_map.1 hline
    exact ⟨fun hc => (chars_serializeMon hc).1 rfl, serializeMon_ne_empty mem _ _ _ isParty⟩

end NuzlockeSolver.Emulator
