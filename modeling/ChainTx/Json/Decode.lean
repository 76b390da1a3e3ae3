import ChainTx.Json.Value
import ChainTx.Text.Decimal
import ChainTx.Text.Quoted
/-!
# Typed decoding of JSON values

Decoders turn a JSON value into a typed one or report, in a fixed wording, what they met instead
of what they expected.

* A number decoder accepts integers in its range; another integer is an invalid value, anything
  else an invalid type.
* A record accepts an object or an array. From an object, the fields present are decoded in key
  order, unknown keys ignored; then absent fields are reported in declaration order, an optional
  field being absent meaning none. From an array, the fields are its items in declaration order,
  and items beyond the last field are an error.
* An enumeration of names accepts the name as a string, or an object with the name as its only
  key and null as its value.
-/

namespace ChainTx.Decode

/-- What a decoder met, as its diagnostics describe it. -/
inductive Unexpected where
  | bool (b : Bool)
  | unsigned (n : Nat)
  | signed (i : Int)
  | float (x : Decimal.Binary64)
  | str (s : String)
  | null
  | seq
  | map
  deriving DecidableEq

/-- The description of what was met. -/
def Unexpected.text : Unexpected → String
  | .bool b => "boolean `" ++ toString b ++ "`"
  | .unsigned n => "integer `" ++ toString n ++ "`"
  | .signed i => "integer `" ++ toString i ++ "`"
  | .float x => "floating point `" ++ x.text ++ "`"
  | .str s => "string " ++ Quoted.string s
  | .null => "null"
  | .seq => "sequence"
  | .map => "map"

/-- The kind of a value, for diagnostics. -/
def unexpected : Json → Unexpected
  | .null => .null
  | .bool b => .bool b
  | .num (.int i) => if 0 ≤ i then .unsigned i.toNat else .signed i
  | .num (.float x) => .float x
  | .str s => .str s
  | .arr _ => .seq
  | .obj _ => .map

/-- Why a value could not be decoded. -/
inductive DecodeError where
  | invalidType (found : Unexpected) (expected : String)
  | invalidValue (found : Unexpected) (expected : String)
  | invalidLength (len : Nat) (expected : String)
  | missingField (name : String)
  | unknownVariant (name : String) (expected : List String)
  /-- A failure of the decoded type's own check, with its text. -/
  | custom (message : String)
  deriving DecidableEq

/-- A name between backquotes. -/
def ticked (s : String) : String := "`" ++ s ++ "`"

/-- The list of accepted names. -/
def oneOf : List String → String
  | [] => "there are no variants"
  | [a] => "expected " ++ ticked a
  | [a, b] => "expected " ++ ticked a ++ " or " ++ ticked b
  | names => "expected one of " ++ ", ".intercalate (names.map ticked)

/-- The text of a decoding error. -/
def DecodeError.message : DecodeError → String
  | .invalidType u e => "invalid type: " ++ u.text ++ ", expected " ++ e
  | .invalidValue u e => "invalid value: " ++ u.text ++ ", expected " ++ e
  | .invalidLength n e => "invalid length " ++ toString n ++ ", expected " ++ e
  | .missingField f => "missing field " ++ ticked f
  | .unknownVariant v names => "unknown variant " ++ ticked v ++ ", " ++ oneOf names
  | .custom m => m

/-- A decoder of values of type `α`. -/
abbrev Decoder (α : Type) := Json → Except DecodeError α

/-- An integer below `2^bits`, described as `name`. -/
def unsigned (bits : Nat) (name : String) : Decoder Nat
  | .num (.int i) =>
    if i < 0 then .error (.invalidValue (.signed i) name)
    else if i.toNat < Nat.pow 2 bits then .ok i.toNat
    else .error (.invalidValue (.unsigned i.toNat) name)
  | j => .error (.invalidType (unexpected j) name)

def u8 : Decoder Nat := unsigned 8 "u8"
def u32 : Decoder Nat := unsigned 32 "u32"
def u64 : Decoder Nat := unsigned 64 "u64"
def usize : Decoder Nat := unsigned 64 "usize"

def bool : Decoder Bool
  | .bool b => .ok b
  | j => .error (.invalidType (unexpected j) "a boolean")

def string : Decoder String
  | .str s => .ok s
  | j => .error (.invalidType (unexpected j) "a string")

/-- Each item of an array, the first failure winning. -/
def list {α : Type} (d : Decoder α) : Decoder (List α)
  | .arr items => items.mapM d
  | j => .error (.invalidType (unexpected j) "a sequence")

/-- Null as none, anything else through `d`. -/
def option {α : Type} (d : Decoder α) : Decoder (Option α)
  | .null => .ok none
  | j => some <$> d j

/-- A string checked by a parser whose failure text becomes the error. -/
def parsedString {α ε : Type} (parse : String → Except ε α) (text : ε → String) : Decoder α :=
  fun j => do
    let s ← string j
    match parse s with
    | .ok a => .ok a
    | .error e => .error (.custom (text e))

/-- One of a list of names. -/
def names {α : Type} (choices : List (String × α)) : Decoder α := fun j =>
  let find (k : String) : Except DecodeError α :=
    match choices.find? (·.1 == k) with
    | some (_, a) => .ok a
    | none => .error (.unknownVariant k (choices.map (·.1)))
  match j with
  | .str s => find s
  | .obj [(k, v)] => do
    let a ← find k
    match v with
    | .null => .ok a
    | other => .error (.invalidType (unexpected other) "unit")
  | .obj _ => .error (.invalidValue .map "map with a single key")
  | other => .error (.invalidType (unexpected other) "string or map")

/-- Where the fields of a record come from. -/
inductive Fields where
  /-- The entries of an object. -/
  | entries (es : List (String × Json))
  /-- The items of an array, one per field in order. -/
  | items (vs : List Json)

/-- A record being decoded: its name, its number of fields and their source. -/
structure Record where
  name : String
  arity : Nat
  fields : Fields

/-- The error for an array that ends before field `index`. -/
def Record.short (r : Record) (index : Nat) : DecodeError :=
  .invalidLength index ("struct " ++ r.name ++ " with " ++ toString r.arity ++ " elements")

/-- A required field: field `index` of an array or key `key` of an object. -/
def Record.field {α : Type} (r : Record) (index : Nat) (key : String) (d : Decoder α) :
    Except DecodeError α :=
  match r.fields with
  | .entries es =>
    match es.find? (·.1 == key) with
    | some (_, v) => d v
    | none => .error (.missingField key)
  | .items vs =>
    match vs[index]? with
    | some v => d v
    | none => .error (r.short index)

/-- A field whose absence from an object gives `absent`. -/
def Record.fieldOr {α : Type} (r : Record) (index : Nat) (key : String) (d : Decoder α)
    (absent : α) : Except DecodeError α :=
  match r.fields with
  | .entries es =>
    match es.find? (·.1 == key) with
    | some (_, v) => d v
    | none => .ok absent
  | .items vs =>
    match vs[index]? with
    | some v => d v
    | none => .error (r.short index)

/-- A field with a default, taken when it is absent from an object or past the end of an
array. -/
def Record.defaulted {α : Type} (r : Record) (index : Nat) (key : String) (d : Decoder α)
    (absent : α) : Except DecodeError α :=
  match r.fields with
  | .entries es =>
    match es.find? (·.1 == key) with
    | some (_, v) => d v
    | none => .ok absent
  | .items vs =>
    match vs[index]? with
    | some v => d v
    | none => .ok absent

/-- An optional field: absent from an object, or null, is none. -/
def Record.optField {α : Type} (r : Record) (index : Nat) (key : String) (d : Decoder α) :
    Except DecodeError (Option α) :=
  r.fieldOr index key (option d) none

/-- A check of one field's value that keeps no result. -/
abbrev FieldCheck := String × (Json → Except DecodeError Unit)

/-- The check of a field decoded by `d`. -/
def check {α : Type} (key : String) (d : Decoder α) : FieldCheck :=
  (key, fun v => (d v).map fun _ => ())

/-- Decodes the known entries of an object in key order, ignoring unknown keys. -/
def checkEntries (checks : List FieldCheck) : List (String × Json) → Except DecodeError Unit
  | [] => .ok ()
  | (k, v) :: rest => do
    match checks.find? (·.1 == k) with
    | some (_, c) => c v
    | none => pure ()
    checkEntries checks rest

/-- A record named `name` whose fields are checked by `checks` (in declaration order) and built
by `build`. -/
def record {α : Type} (name : String) (checks : List FieldCheck) (build : Record → Except DecodeError α) :
    Decoder α
  | .obj es => do
    checkEntries checks es
    build ⟨name, checks.length, .entries es⟩
  | .arr vs => do
    let a ← build ⟨name, checks.length, .items vs⟩
    if vs.length > checks.length then .error (.invalidLength vs.length "fewer elements in array")
    else .ok a
  | j => .error (.invalidType (unexpected j) ("struct " ++ name))

end ChainTx.Decode
