import ChainTx.Text.Decimal
/-!
# JSON values

A JSON value as the wire forms of this library read and write it. A number is an integer that
fits a 64-bit word, signed or unsigned, or a binary64 value, written as its shortest decimal. An
object holds its members sorted by key, each key once, the later of
two equal keys winning, which is the order in which its members are visited and written.
-/

namespace ChainTx

/-- A JSON number: an exact integer in `[-2^63, 2^64)`, or a binary64 value. -/
inductive JsonNumber where
  | int (i : Int)
  | float (x : Decimal.Binary64)
  deriving DecidableEq, Repr, Inhabited

/-- The text of a number: an integer in decimal, a binary64 value as its shortest decimal. -/
def JsonNumber.text : JsonNumber → String
  | .int i => toString i
  | .float x => x.text

/-- A JSON value. -/
inductive Json where
  | null
  | bool (b : Bool)
  | num (n : JsonNumber)
  | str (s : String)
  | arr (items : List Json)
  | obj (fields : List (String × Json))
  deriving Repr, Inhabited

namespace Json

/-- Inserts a member into members sorted by key, replacing a member of the same key. -/
def insertField (k : String) (v : Json) : List (String × Json) → List (String × Json)
  | [] => [(k, v)]
  | (k', v') :: rest =>
    if k = k' then (k, v) :: rest
    else if k < k' then (k, v) :: (k', v') :: rest
    else (k', v') :: insertField k v rest

/-- An object from members in any order: sorted by key, the later of two equal keys winning. -/
def mkObj (fields : List (String × Json)) : Json :=
  .obj (fields.foldl (fun acc kv => insertField kv.1 kv.2 acc) [])

/-- A natural number. -/
def nat (n : Nat) : Json := .num (.int n)

/-- An integer. -/
def int (i : Int) : Json := .num (.int i)

/-- A value or `null`. -/
def opt {α : Type} (f : α → Json) : Option α → Json
  | some a => f a
  | none => .null

/-- The member of an object under a key. -/
def get? (j : Json) (k : String) : Option Json :=
  match j with
  | .obj fields => (fields.find? (·.1 == k)).map (·.2)
  | _ => none

/-- The member under a key, with `null` read as absent. -/
def field? (j : Json) (k : String) : Option Json :=
  match j.get? k with
  | some .null => none
  | other => other

/-! ## Compact text -/

/-- The escaped form of one character inside a JSON string. -/
def escapeChar (c : Char) : List Char :=
  if c = '"' then ['\\', '"']
  else if c = '\\' then ['\\', '\\']
  else if c = '\n' then ['\\', 'n']
  else if c = '\r' then ['\\', 'r']
  else if c = '\t' then ['\\', 't']
  else if c.toNat = 8 then ['\\', 'b']
  else if c.toNat = 12 then ['\\', 'f']
  else if c.toNat < 0x20 then
    let hex (n : Nat) : Char := if n < 10 then Char.ofNat (48 + n) else Char.ofNat (87 + n)
    ['\\', 'u', '0', '0', hex (c.toNat / 16), hex (c.toNat % 16)]
  else [c]

/-- A string literal. -/
def quote (s : String) : String :=
  String.ofList ('"' :: s.toList.flatMap escapeChar ++ ['"'])

/-- Decimal digits of a natural number. -/
def natText (n : Nat) : String := toString n

mutual
/-- Compact JSON text, members in the order held. -/
def render : Json → String
  | .null => "null"
  | .bool true => "true"
  | .bool false => "false"
  | .num n => n.text
  | .str s => quote s
  | .arr items => "[" ++ renderItems items ++ "]"
  | .obj fields => "\x7b" ++ renderFields fields ++ "\x7d"

/-- Array items, comma separated. -/
def renderItems : List Json → String
  | [] => ""
  | [x] => render x
  | x :: rest => render x ++ "," ++ renderItems rest

/-- Object members, comma separated. -/
def renderFields : List (String × Json) → String
  | [] => ""
  | [(k, v)] => quote k ++ ":" ++ render v
  | (k, v) :: rest => quote k ++ ":" ++ render v ++ "," ++ renderFields rest
end

end Json

end ChainTx
