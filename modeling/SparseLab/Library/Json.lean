import Mathlib.Data.List.Sort
import SparseLab.Library.Numerals
import SparseLab.Library.Texts

/-! JSON values as `json.loads` gives them, and the compact text `json.dumps` writes. -/

namespace SparseLab.Library

/-- A finite number with a fraction or an exponent is carried as the text `float.__repr__`
gives it. -/
inductive Json
  | null
  | bool (value : Bool)
  | int (value : Int)
  | float (written : Text)
  | nonfinite
  | str (value : Text)
  | list (values : List Json)
  | dict (members : List (Text × Json))

namespace Json

/-- `members.get(key)` -/
def lookup (members : List (Text × Json)) (key : Text) : Option Json :=
  (members.find? fun member => member.1 = key).map Prod.snd

/-- `value.get(key)` of an object. -/
def get (value : Json) (key : Text) : Option Json :=
  match value with
  | dict members => lookup members key
  | _ => none

/-- `set(value) == set(keys)` of an object. -/
def hasKeys (value : Json) (keys : List Text) : Bool :=
  match value with
  | dict members =>
    (members.all fun member => keys.contains member.1) &&
      keys.all fun key => (lookup members key).isSome
  | _ => false

/-- `set(value).issubset(keys)` of an object. -/
def keysWithin (value : Json) (keys : List Text) : Bool :=
  match value with
  | dict members => members.all fun member => keys.contains member.1
  | _ => false

theorem hasKeys_iff {value : Json} {keys : List Text} : value.hasKeys keys = true ↔
    ∃ members, value = dict members ∧ (∀ member ∈ members, member.1 ∈ keys) ∧
      ∀ key ∈ keys, (lookup members key).isSome = true := by
  cases value <;> simp [hasKeys]

theorem keysWithin_of_hasKeys {value : Json} {keys others : List Text}
    (exact : value.hasKeys keys = true) (within : keys ⊆ others) :
    value.keysWithin others = true := by
  obtain ⟨members, rfl, known, -⟩ := hasKeys_iff.mp exact
  simp only [keysWithin, List.all_eq_true, List.contains_iff_mem]
  intro member inside
  exact within (known member inside)

theorem get_eq_none {value : Json} {keys : List Text} {key : Text}
    (exact : value.hasKeys keys = true) (other : key ∉ keys) : value.get key = none := by
  obtain ⟨members, rfl, known, -⟩ := hasKeys_iff.mp exact
  simp only [get, lookup, Option.map_eq_none_iff, List.find?_eq_none, decide_eq_true_eq]
  rintro member inside rfl
  exact other (known member inside)

def isDict : Json → Bool
  | dict _ => true
  | _ => false

/-- `value` where `isinstance(value, str)` -/
def str? : Json → Option Text
  | str value => some value
  | _ => none

/-- `value` where `isinstance(value, list)` -/
def list? : Json → Option (List Json)
  | list values => some values
  | _ => none

def hexDigit (number : Nat) : Nat := if number < 10 then 0x30 + number else 0x57 + number

/-- One code point in a string of `json.dumps(..., ensure_ascii=False)`. -/
def escape (code : Nat) : Text :=
  if code = 0x22 then text "\\\""
  else if code = 0x5c then text "\\\\"
  else if code = 0x0a then text "\\n"
  else if code = 0x0d then text "\\r"
  else if code = 0x09 then text "\\t"
  else if code = 0x0c then text "\\f"
  else if code = 0x08 then text "\\b"
  else if code < 0x20 then text "\\u00" ++ [hexDigit (code / 16), hexDigit (code % 16)]
  else [code]

def quoted (value : Text) : Text := text "\"" ++ value.flatMap escape ++ text "\""

def unicodeEscape (code : Nat) : Text :=
  text "\\u" ++ [hexDigit (code / 0x1000), hexDigit (code / 0x100 % 16), hexDigit (code / 16 % 16),
    hexDigit (code % 16)]

/-- One code point in a string of `json.dumps`: ASCII, with a surrogate pair beyond the basic plane. -/
def escapeAscii (code : Nat) : Text :=
  if code < 0x7f then escape code
  else if code < 0x10000 then unicodeEscape code
  else
    unicodeEscape (0xd800 + (code - 0x10000) / 0x400) ++
      unicodeEscape (0xdc00 + (code - 0x10000) % 0x400)

def quotedAscii (value : Text) : Text := text "\"" ++ value.flatMap escapeAscii ++ text "\""

def nonfiniteRefused : String := "Out of range float values are not JSON compliant"

mutual

/-- `json.dumps(value, ensure_ascii=False, sort_keys=True, separators=(",", ":"), allow_nan=False)` -/
def dumps : Json → Except String Text
  | null => .ok (text "null")
  | bool value => .ok (text (if value then "true" else "false"))
  | int value => .ok (text (toString value))
  | float written => .ok written
  | nonfinite => .error nonfiniteRefused
  | str value => .ok (quoted value)
  | list values => do
      let pieces ← dumpsEach values
      .ok (text "[" ++ joined (text ",") pieces ++ text "]")
  | dict members => do
      let pieces ← dumpsMembers members
      let sorted := pieces.insertionSort fun left right => left.1 ≤ right.1
      .ok (text "\x7b" ++
        joined (text ",") (sorted.map fun piece => quoted piece.1 ++ text ":" ++ piece.2) ++
        text "\x7d")

def dumpsEach : List Json → Except String (List Text)
  | [] => .ok []
  | value :: values => do
      let piece ← dumps value
      let pieces ← dumpsEach values
      .ok (piece :: pieces)

def dumpsMembers : List (Text × Json) → Except String (List (Text × Text))
  | [] => .ok []
  | (key, value) :: members => do
      let piece ← dumps value
      let pieces ← dumpsMembers members
      .ok ((key, piece) :: pieces)

end

example : dumps (dict [(text "b", list [int 2, null]), (text "a", str (text "x\ny"))]) =
    .ok (text "\x7b\"a\":\"x\\ny\",\"b\":[2,null]\x7d") := by decide +kernel

end Json

end SparseLab.Library
