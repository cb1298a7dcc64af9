import Mathlib.Data.List.Sort

namespace DashTwrp.Python

/-! `json.dump` with an indentation of two. -/

inductive Json where
  | string (value : String)
  | number (value : Int)
  | array (items : List Json)
  | object (fields : List (String × Json))

namespace Json

/-- `"\\u{0:04x}"` -/
def unicodeEscape (code : Nat) : List Char :=
  let digits := Nat.toDigits 16 code
  '\\' :: 'u' :: List.replicate (4 - digits.length) '0' ++ digits

/-- How a character stands in a JSON string with `ensure_ascii`. -/
def escape (character : Char) : List Char :=
  let code := character.toNat
  if character = '"' ∨ character = '\\' then ['\\', character]
  else if character = '\n' then ['\\', 'n']
  else if character = '\r' then ['\\', 'r']
  else if character = '\t' then ['\\', 't']
  else if code = 8 then ['\\', 'b']
  else if code = 12 then ['\\', 'f']
  else if 0x20 ≤ code ∧ code ≤ 0x7e then [character]
  else if code < 0x10000 then unicodeEscape code
  else unicodeEscape (0xd800 + (code - 0x10000) / 0x400) ++
    unicodeEscape (0xdc00 + (code - 0x10000) % 0x400)

def quote (text : String) : List Char := '"' :: text.toList.flatMap escape ++ ['"']

def newline (level : Nat) : List Char := '\n' :: List.replicate (2 * level) ' '

/-- Items between brackets, each on a line of its own. -/
def bracket (first last : Char) (level : Nat) (items : List (List Char)) : List Char :=
  if items = [] then [first, last]
  else first :: newline (level + 1) ++
    List.intercalate (',' :: newline (level + 1)) items ++ newline level ++ [last]

/-- `sort_keys=True` -/
def sortFields (fields : List (String × List Char)) : List (String × List Char) :=
  fields.insertionSort fun first second => first.1 ≤ second.1

mutual

def render (sortKeys : Bool) (level : Nat) : Json → List Char
  | .string value => quote value
  | .number value => (toString value).toList
  | .array items => bracket '[' ']' level (renderItems sortKeys (level + 1) items)
  | .object fields =>
      let rendered := renderFields sortKeys (level + 1) fields
      let ordered := if sortKeys then sortFields rendered else rendered
      bracket '\x7b' '\x7d' level (ordered.map fun field => quote field.1 ++ ": ".toList ++ field.2)

def renderItems (sortKeys : Bool) (level : Nat) : List Json → List (List Char)
  | [] => []
  | item :: rest => render sortKeys level item :: renderItems sortKeys level rest

def renderFields (sortKeys : Bool) (level : Nat) :
    List (String × Json) → List (String × List Char)
  | [] => []
  | (key, value) :: rest =>
      (key, render sortKeys level value) :: renderFields sortKeys level rest

end

/-- `json.dump(value, stream, indent=2, sort_keys=…)` -/
def dump (sortKeys : Bool) (value : Json) : List Char := render sortKeys 0 value

end Json

end DashTwrp.Python
