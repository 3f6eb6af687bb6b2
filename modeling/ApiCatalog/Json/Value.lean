import ApiCatalog.Json.Number

/-!
# JSON values and their text

A value keeps the members of an object in order. Its text is compact: no blanks, and in a string
only quotes, backslashes and control characters are escaped.
-/

namespace ApiCatalog.Json

/-- A JSON value. -/
inductive Value where
  | null
  | bool (b : Bool)
  | number (n : Number)
  | string (s : String)
  | array (items : List Value)
  | object (members : List (String × Value))
deriving Repr, Inhabited

/-! ## Equality -/

namespace Value

mutual

/-- Whether two values are equal. -/
def same : Value → Value → Bool
  | .null, .null => true
  | .bool a, .bool b => a == b
  | .number a, .number b => a == b
  | .string a, .string b => a == b
  | .array as, .array bs => sameItems as bs
  | .object as, .object bs => sameMembers as bs
  | _, _ => false

/-- Whether two lists of values are equal. -/
def sameItems : List Value → List Value → Bool
  | [], [] => true
  | a :: as, b :: bs => same a b && sameItems as bs
  | _, _ => false

/-- Whether two lists of members are equal. -/
def sameMembers : List (String × Value) → List (String × Value) → Bool
  | [], [] => true
  | (k, a) :: as, (l, b) :: bs => k == l && (same a b && sameMembers as bs)
  | _, _ => false

end

mutual

theorem same_iff (a b : Value) : same a b = true ↔ a = b := by
  cases a <;> cases b <;> simp [same, sameItems_iff, sameMembers_iff]

theorem sameItems_iff (as bs : List Value) : sameItems as bs = true ↔ as = bs := by
  cases as with
  | nil => cases bs <;> simp [sameItems]
  | cons a as => cases bs <;> simp [sameItems, same_iff a, sameItems_iff as]

theorem sameMembers_iff (as bs : List (String × Value)) :
    sameMembers as bs = true ↔ as = bs := by
  match as, bs with
  | [], [] => simp [sameMembers]
  | [], _ :: _ => simp [sameMembers]
  | _ :: _, [] => simp [sameMembers]
  | (k, a) :: as, (l, b) :: bs =>
    simp [sameMembers, same_iff a, sameMembers_iff as, and_assoc]

end

instance : DecidableEq Value := fun a b => decidable_of_iff _ (same_iff a b)

end Value

/-! ## Strings as written -/

/-- The lower-case hexadecimal digit of a number below sixteen. -/
def hexDigit (n : Nat) : Char := if n < 10 then Char.ofNat (48 + n) else Char.ofNat (87 + n)

/-- How a character is written inside a string. -/
def escape (c : Char) : List Char :=
  if c = '"' then ['\\', '"']
  else if c = '\\' then ['\\', '\\']
  else if c = '\n' then ['\\', 'n']
  else if c = '\r' then ['\\', 'r']
  else if c = '\t' then ['\\', 't']
  else if c.toNat = 8 then ['\\', 'b']
  else if c.toNat = 12 then ['\\', 'f']
  else if c.toNat < 32 then
    ['\\', 'u', '0', '0', hexDigit (c.toNat / 16), hexDigit (c.toNat % 16)]
  else [c]

/-- The text of a string, quotes included. -/
def quote (cs : List Char) : List Char := '"' :: (cs.flatMap escape ++ ['"'])

theorem escape_of_plain {c : Char} (hq : c ≠ '"') (hb : c ≠ '\\') (hc : 32 ≤ c.toNat) :
    escape c = [c] := by
  have h10 : c ≠ '\n' := by rintro rfl; exact absurd hc (by decide)
  have h13 : c ≠ '\r' := by rintro rfl; exact absurd hc (by decide)
  have h9 : c ≠ '\t' := by rintro rfl; exact absurd hc (by decide)
  have h8 : c.toNat ≠ 8 := by omega
  have h12 : c.toNat ≠ 12 := by omega
  have h32 : ¬ c.toNat < 32 := by omega
  simp only [escape, hq, hb, h10, h13, h9, h8, h12, h32, if_false]

/-! ## Values as written -/

namespace Value

mutual

/-- The compact text of a value. -/
def write : Value → List Char
  | .null => "null".toList
  | .bool true => "true".toList
  | .bool false => "false".toList
  | .number n => n.write
  | .string s => quote s.toList
  | .array [] => ['[', ']']
  | .array (v :: vs) => '[' :: (write v ++ writeItems vs ++ [']'])
  | .object [] => ['{', '}']
  | .object ((k, v) :: ms) =>
    '{' :: (quote k.toList ++ ':' :: write v ++ writeMembers ms ++ ['}'])

/-- The items after the first, each after a comma. -/
def writeItems : List Value → List Char
  | [] => []
  | v :: vs => ',' :: (write v ++ writeItems vs)

/-- The members after the first, each after a comma. -/
def writeMembers : List (String × Value) → List Char
  | [] => []
  | (k, v) :: ms => ',' :: (quote k.toList ++ ':' :: write v ++ writeMembers ms)

end

/-- The compact text of a value, as a string. -/
def text (v : Value) : String := String.ofList v.write

/-- Whether the value is `null`. -/
def isNull : Value → Bool
  | .null => true
  | _ => false

/-- Whether the value holds nothing: the empty string, array or object. -/
def isEmpty : Value → Bool
  | .string s => s.isEmpty
  | .array items => items.isEmpty
  | .object members => members.isEmpty
  | _ => false

/-- A string, or `null` if there is none. -/
def nullable : Option String → Value
  | some s => .string s
  | none => .null

end Value

end ApiCatalog.Json
