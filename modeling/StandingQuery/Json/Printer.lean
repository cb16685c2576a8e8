import StandingQuery.Json.Value

/-!
# Compact JSON text

A value is written without white space, the members of an object in the order of its list.
In strings only quotes, backslashes and the control characters below U+0020 are escaped.

* `escape_of_plain`: all other characters are written as they stand.
-/

namespace StandingQuery.Json

/-- One character inside a JSON string. -/
def escape (c : Char) : List Char :=
  if c = '"' then ['\\', '"']
  else if c = '\\' then ['\\', '\\']
  else if c = '\x08' then ['\\', 'b']
  else if c = '\t' then ['\\', 't']
  else if c = '\n' then ['\\', 'n']
  else if c = '\x0c' then ['\\', 'f']
  else if c = '\r' then ['\\', 'r']
  else if c.toNat < 32 then
    ['\\', 'u', '0', '0', Nat.digitChar (c.toNat / 16), Nat.digitChar (c.toNat % 16)]
  else [c]

/-- The characters that a string holds unescaped. -/
def IsPlain (c : Char) : Prop := c ≠ '"' ∧ c ≠ '\\' ∧ 32 ≤ c.toNat

theorem escape_of_plain {c : Char} (h : IsPlain c) : escape c = [c] := by
  obtain ⟨h1, h2, h3⟩ := h
  have h8 : c ≠ '\x08' := by rintro rfl; exact absurd h3 (by decide)
  have h9 : c ≠ '\t' := by rintro rfl; exact absurd h3 (by decide)
  have h10 : c ≠ '\n' := by rintro rfl; exact absurd h3 (by decide)
  have h12 : c ≠ '\x0c' := by rintro rfl; exact absurd h3 (by decide)
  have h13 : c ≠ '\r' := by rintro rfl; exact absurd h3 (by decide)
  have h32 : ¬ c.toNat < 32 := by omega
  simp [escape, h1, h2, h8, h9, h10, h12, h13, h32]

def renderString (s : String) : List Char :=
  '"' :: s.toList.flatMap escape ++ ['"']

def Number.toText : Number → String
  | integer n => toString n
  | double x => x.toText

namespace Value

mutual

/-- The characters of a value's text. -/
def render : Value → List Char
  | null => ['n', 'u', 'l', 'l']
  | bool true => ['t', 'r', 'u', 'e']
  | bool false => ['f', 'a', 'l', 's', 'e']
  | number n => n.toText.toList
  | string s => renderString s
  | array vs => '[' :: renderItems vs
  | object ms => '\x7b' :: renderMembers ms

/-- The items of an array and its closing bracket. -/
def renderItems : List Value → List Char
  | [] => [']']
  | v :: vs => v.render ++ renderMoreItems vs

/-- The items after the first, each after a comma. -/
def renderMoreItems : List Value → List Char
  | [] => [']']
  | v :: vs => ',' :: v.render ++ renderMoreItems vs

/-- The members of an object and its closing brace. -/
def renderMembers : List (String × Value) → List Char
  | [] => ['\x7d']
  | (k, v) :: ms => renderString k ++ ':' :: v.render ++ renderMoreMembers ms

/-- The members after the first, each after a comma. -/
def renderMoreMembers : List (String × Value) → List Char
  | [] => ['\x7d']
  | (k, v) :: ms => ',' :: renderString k ++ ':' :: v.render ++ renderMoreMembers ms

end

def toText (v : Value) : String := String.ofList v.render

end Value

end StandingQuery.Json
