/-!
# JSON values and their text

Values as the program writes them. The text has no blanks, and members stand in
the order in which the value lists them.
-/

namespace Discussion.Json

/-- A JSON value with whole numbers. Members keep their order. -/
inductive Value
  | null
  | bool (b : Bool)
  | number (n : Int)
  | string (s : String)
  | array (items : List Value)
  | object (members : List (String × Value))

/-- A character inside a string: quotes, backslashes and control characters are
escaped. -/
def escapeChar (c : Char) : List Char :=
  match c with
  | '"' => ['\\', '"']
  | '\\' => ['\\', '\\']
  | '\x08' => ['\\', 'b']
  | '\t' => ['\\', 't']
  | '\n' => ['\\', 'n']
  | '\x0c' => ['\\', 'f']
  | '\r' => ['\\', 'r']
  | c =>
    if c.toNat < 0x20 then
      ['\\', 'u', '0', '0', (c.toNat / 16).digitChar, (c.toNat % 16).digitChar]
    else [c]

/-- A string in quotes. -/
def quote (s : String) : List Char := '"' :: s.toList.flatMap escapeChar ++ ['"']

/-- The digits of a whole number, after a sign if it is negative. -/
def numberChars : Int → List Char
  | .ofNat n => Nat.toDigits 10 n
  | .negSucc n => '-' :: Nat.toDigits 10 (n + 1)

namespace Value

mutual

/-- The text of a value. -/
def chars : Value → List Char
  | .null => ['n', 'u', 'l', 'l']
  | .bool true => ['t', 'r', 'u', 'e']
  | .bool false => ['f', 'a', 'l', 's', 'e']
  | .number n => numberChars n
  | .string s => quote s
  | .array [] => ['[', ']']
  | .array (v :: rest) => '[' :: v.chars ++ itemChars rest
  | .object [] => ['{', '}']
  | .object ((k, v) :: rest) => '{' :: quote k ++ ':' :: v.chars ++ memberChars rest

/-- The text of the items after the first, up to the end of the array. -/
def itemChars : List Value → List Char
  | [] => [']']
  | v :: rest => ',' :: v.chars ++ itemChars rest

/-- The text of the members after the first, up to the end of the object. -/
def memberChars : List (String × Value) → List Char
  | [] => ['}']
  | (k, v) :: rest => ',' :: quote k ++ ':' :: v.chars ++ memberChars rest

end

/-- The text of a value. -/
def text (v : Value) : String := String.ofList v.chars

/-- A string, or null. -/
def ofText? : Option String → Value
  | none => .null
  | some s => .string s

end Value

end Discussion.Json
