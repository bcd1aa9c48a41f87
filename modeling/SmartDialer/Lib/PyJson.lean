import Mathlib.Data.Int.Notation
import Mathlib.Data.List.Basic

namespace Python

/-!
# JSON in Python

The values that `json.loads` returns, and what Python does with them: their truth value, `or`,
`dict.get`, `str()` and `json.dumps`.  A float is given by its `repr`, which reads back as the same
float; the `repr` of a string inside a container is a parameter, since it depends on the Unicode
tables.

* `str_ne_empty`: what is true has a text.
-/

/-- A float, by its `repr`. -/
structure FloatRepr where
  text : String
  nonempty : text ≠ ""
  deriving Repr

/-- A value that `json.loads` returns. -/
inductive Json where
  | null
  | bool (b : Bool)
  | int (n : ℤ)
  | float (x : FloatRepr)
  | str (s : String)
  | arr (elements : List Json)
  | obj (items : List (String × Json))
  deriving Repr

/-- `d.get(key)`. -/
def get (items : List (String × Json)) (key : String) : Json := (items.lookup key).getD .null

namespace Json

/-- `bool(v)`. -/
def truthy : Json → Bool
  | .null => false
  | .bool b => b
  | .int n => n != 0
  | .float x => x.text != "0.0" && x.text != "-0.0"
  | .str s => s != ""
  | .arr elements => !elements.isEmpty
  | .obj items => !items.isEmpty

/-- `v or w`. -/
def or (v w : Json) : Json := if v.truthy then v else w

/-- `type(v).__name__`. -/
def typeName : Json → String
  | .null => "NoneType"
  | .bool _ => "bool"
  | .int _ => "int"
  | .float _ => "float"
  | .str _ => "str"
  | .arr _ => "list"
  | .obj _ => "dict"

/-- A string, or `None`. -/
def isText : Json → Bool
  | .null | .str _ => true
  | _ => false

/-- An instance of `int` or `float`; `bool` is a subclass of the first. -/
def isNumber : Json → Bool
  | .bool _ | .int _ | .float _ => true
  | _ => false

/-! ### Texts -/

section

variable (quote : String → String)

mutual

/-- `repr(v)`. -/
def repr : Json → String
  | .null => "None"
  | .bool b => if b then "True" else "False"
  | .int n => n.repr
  | .float x => x.text
  | .str s => quote s
  | .arr elements => "[" ++ ", ".intercalate (reprElements elements) ++ "]"
  | .obj items => "\x7b" ++ ", ".intercalate (reprItems items) ++ "\x7d"

/-- The elements of a list. -/
def reprElements : List Json → List String
  | [] => []
  | v :: rest => v.repr :: reprElements rest

/-- The items of a dictionary. -/
def reprItems : List (String × Json) → List String
  | [] => []
  | (key, v) :: rest => (quote key ++ ": " ++ v.repr) :: reprItems rest

end

/-- `str(v)`. -/
def toStr : Json → String
  | .str s => s
  | v => v.repr quote

end

/-- `\uXXXX`. -/
def hexEscape (n : ℕ) : String := "\\u" ++ String.ofList ((Nat.toDigits 16 n).leftpad 4 '0')

/-- One character in an encoded string, `ensure_ascii` being on. -/
def escapeChar (c : Char) : String :=
  match c.toNat with
  | 0x22 => "\\\""
  | 0x5c => "\\\\"
  | 0x0a => "\\n"
  | 0x0d => "\\r"
  | 0x09 => "\\t"
  | 0x0c => "\\f"
  | 0x08 => "\\b"
  | n =>
    if 0x20 ≤ n ∧ n ≤ 0x7e then c.toString
    else if n < 0x10000 then hexEscape n
    -- a surrogate pair
    else hexEscape (0xd800 + (n - 0x10000) / 0x400) ++ hexEscape (0xdc00 + (n - 0x10000) % 0x400)

/-- A string, in double quotes. -/
def encodeString (s : String) : String :=
  "\"" ++ String.join (s.toList.map escapeChar) ++ "\""

/-- A float; what is no finite number is no JSON, but is written all the same. -/
def encodeFloat (x : FloatRepr) : String :=
  match x.text with
  | "nan" => "NaN"
  | "inf" => "Infinity"
  | "-inf" => "-Infinity"
  | text => text

mutual

/-- `json.dumps(v)`. -/
def dumps : Json → String
  | .null => "null"
  | .bool b => if b then "true" else "false"
  | .int n => n.repr
  | .float x => encodeFloat x
  | .str s => encodeString s
  | .arr elements => "[" ++ ", ".intercalate (dumpsElements elements) ++ "]"
  | .obj items => "\x7b" ++ ", ".intercalate (dumpsItems items) ++ "\x7d"

/-- The elements of an array. -/
def dumpsElements : List Json → List String
  | [] => []
  | v :: rest => v.dumps :: dumpsElements rest

/-- The members of an object. -/
def dumpsItems : List (String × Json) → List String
  | [] => []
  | (key, v) :: rest => (encodeString key ++ ": " ++ v.dumps) :: dumpsItems rest

end

/-! ### Truth -/

variable {v w : Json}

/-- A text is true unless it is empty, also when it says `"false"`. -/
@[simp] theorem truthy_str {s : String} : (Json.str s).truthy = (s != "") := rfl

/-- `str` leaves a text as it is, without quotes. -/
@[simp] theorem toStr_str {quote : String → String} {s : String} :
    (Json.str s).toStr quote = s := rfl

/-- `v or w` is `w` when `v` counts as false. -/
theorem or_of_false (h : v.truthy = false) : v.or w = w := if_neg (by simp [h])

/-- `v or w` counts as true when one of the two does. -/
@[simp] theorem truthy_or : (v.or w).truthy = (v.truthy || w.truthy) := by
  unfold Json.or
  split <;> simp_all

/-- What is true has a text. -/
theorem str_ne_empty {quote : String → String} (h : v.truthy) : v.toStr quote ≠ "" := by
  cases v with
  | null => exact absurd h Bool.false_ne_true
  | bool b => cases b <;> simp [toStr, repr]
  | int n =>
    show n.repr ≠ ""
    rw [Int.repr_eq_if]
    split <;> simp [String.append_eq_empty_iff, Nat.repr_ne_empty]
  | float x => exact x.nonempty
  | str s =>
    show s ≠ ""
    simpa [truthy] using h
  | arr elements => simp [toStr, repr, String.append_eq_empty_iff]
  | obj items => simp [toStr, repr, String.append_eq_empty_iff]

end Json

end Python
