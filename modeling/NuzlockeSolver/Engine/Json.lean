import Mathlib.Data.Rat.Defs
import NuzlockeSolver.Basic

/-!
# JSON values

The values of a JSON library with its checked accessors. An object is a map sorted by key, built
entry by entry; reading back a key gives the entry that was put in. Integers are unbounded here and
cut to a machine width when they are read.
-/

namespace NuzlockeSolver

inductive Json
  | null
  | bool (b : Bool)
  | int (n : Int)
  | float (x : ℚ)
  | str (s : String)
  | arr (elems : List Json)
  | obj (fields : List (String × Json))

/-- What reading JSON can raise: an error of the decoder, a type or parse error of the library, or
an abort of a full vector. -/
inductive JsonFault
  | decode (what : String)
  | typeError (what : String)
  | parseError
  | abort (what : String)
deriving DecidableEq, Repr

/-- The text form of a JSON library. -/
structure JsonText where
  dump : Json → String
  parse : String → Except JsonFault Json

namespace Json

def insertKey (k : String) (v : Json) : List (String × Json) → List (String × Json)
  | [] => [(k, v)]
  | (k', v') :: fields =>
    if k = k' then (k, v) :: fields
    else if k < k' then (k, v) :: (k', v') :: fields
    else (k', v') :: insertKey k v fields

def sortedFields : List (String × Json) → List (String × Json)
  | [] => []
  | (k, v) :: fields => insertKey k v (sortedFields fields)

def object (fields : List (String × Json)) : Json := .obj (sortedFields fields)

theorem lookup_insertKey (k k' : String) (v : Json) (fields : List (String × Json)) :
    (insertKey k v fields).lookup k' = if k' = k then some v else fields.lookup k' := by
  induction fields with
  | nil =>
    rw [insertKey, List.lookup_cons]
    by_cases h : k' = k
    · simp [h]
    · have hbeq : (k' == k) = false := by simpa using h
      rw [if_neg h, hbeq]
  | cons e fields ih =>
    obtain ⟨k₀, v₀⟩ := e
    rw [insertKey]
    by_cases h : k' = k
    · subst h
      rw [if_pos rfl] at ih ⊢
      split
      · exact List.lookup_cons_self
      · rename_i hne
        split
        · exact List.lookup_cons_self
        · have hbeq : (k' == k₀) = false := by simpa using hne
          rw [List.lookup_cons, hbeq]
          exact ih
    · have hbeq : (k' == k) = false := by simpa using h
      rw [if_neg h] at ih ⊢
      split
      · rename_i heq
        subst heq
        rw [List.lookup_cons, List.lookup_cons, hbeq]
      · split
        · rw [List.lookup_cons, hbeq]
        · rw [List.lookup_cons, List.lookup_cons, ih]

theorem lookup_sortedFields (fields : List (String × Json)) (k : String) :
    (sortedFields fields).lookup k = fields.lookup k := by
  induction fields with
  | nil => rfl
  | cons e fields ih =>
    obtain ⟨k₀, v₀⟩ := e
    rw [sortedFields, lookup_insertKey, ih, List.lookup_cons]
    by_cases h : k = k₀
    · simp [h]
    · have hbeq : (k == k₀) = false := by simpa using h
      rw [if_neg h, hbeq]

def get? : Json → String → Option Json
  | .obj fields, k => fields.lookup k
  | _, _ => none

@[simp] theorem get?_object (fields : List (String × Json)) (k : String) :
    (object fields).get? k = fields.lookup k :=
  lookup_sortedFields fields k

def isNull : Json → Bool
  | .null => true
  | _ => false

def isObject : Json → Bool
  | .obj _ => true
  | _ => false

def isArray : Json → Bool
  | .arr _ => true
  | _ => false

def elems : Json → List Json
  | .null => []
  | .arr l => l
  | .obj fields => fields.map Prod.snd
  | j => [j]

def size (j : Json) : Nat := j.elems.length

def index (j : Json) (i : Nat) : Except JsonFault Json :=
  match j with
  | .arr l => .ok ((l[i]?).getD .null)
  | _ => .error (.typeError "cannot use operator[] with a numeric argument")

def indexed (j : Json) : Except JsonFault (List Json) :=
  match j with
  | .arr l => .ok l
  | _ =>
    if j.size = 0 then .ok []
    else .error (.typeError "cannot use operator[] with a numeric argument")

def getInt : Json → Except JsonFault Int
  | .int n => .ok n
  | .float x => .ok (x.num.tdiv x.den)
  | .bool b => .ok (if b then 1 else 0)
  | _ => .error (.typeError "type must be number")

def getInt32 (j : Json) : Except JsonFault Int32 := j.getInt.map Int32.ofInt

def getBool : Json → Except JsonFault Bool
  | .bool b => .ok b
  | _ => .error (.typeError "type must be boolean")

def getDouble : Json → Except JsonFault ℚ
  | .int n => .ok n
  | .float x => .ok x
  | _ => .error (.typeError "type must be number")

def getString : Json → Except JsonFault String
  | .str s => .ok s
  | _ => .error (.typeError "type must be string")

def ofInt32 (n : Int32) : Json := .int n.toInt

def ofInt8 (n : Int8) : Json := .int n.toInt

@[simp] theorem getInt32_ofInt32 (n : Int32) : (ofInt32 n).getInt32 = .ok n := by
  simp [ofInt32, getInt32, getInt, Except.map]

@[simp] theorem getInt32_ofInt8 (n : Int8) : (ofInt8 n).getInt32 = .ok n.toInt32 := by
  have h : Int32.ofInt n.toInt = n.toInt32 := by
    apply Int32.toInt_inj.1
    rw [Int32.toInt_ofInt_of_le, Int8.toInt_toInt32]
    · have := Int8.le_toInt n
      omega
    · have := Int8.toInt_lt n
      omega
  simp [ofInt8, getInt32, getInt, Except.map, h]

end Json

end NuzlockeSolver
