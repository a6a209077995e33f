/-!
# JSON values

The values that rule files and stored tables are made of. Numbers are natural, texts are Unicode,
and an object keeps its members in the order of the text, repeated names included. JSON allows
more: a number with a sign, a fraction or an exponent, and strings that spell no text. Such a
value is well formed but of no use here, and nothing is kept of it.

A record is written as an object, and may also be given as an array of its fields.
-/

namespace TableLexer

/-- A JSON value. -/
inductive Json where
  | null
  | bool (value : Bool)
  | number (value : Nat)
  | string (text : String)
  | array (items : List Json)
  | object (members : List (String × Json))
  /-- A well-formed value that no field can hold. -/
  | unusable

namespace Json

/-- The text of a string. -/
def text? : Json → Option String
  | string text => some text
  | _ => none

/-- The value of `true` and `false`. -/
def bool? : Json → Option Bool
  | bool value => some value
  | _ => none

/-- A number of at most 32 bits. -/
def word? : Json → Option Nat
  | number value => if value < UInt32.size then some value else none
  | _ => none

/-- The only character of a string. -/
def char? (v : Json) : Option Char :=
  match v.text?.map String.toList with
  | some [c] => some c
  | _ => none

/-- The items of an array, each read in the same way. -/
def list? {α : Type} (item? : Json → Option α) : Json → Option (List α)
  | array items => items.mapM item?
  | _ => none

/-- An array of two items. -/
def pair? {α β : Type} (first? : Json → Option α) (second? : Json → Option β) :
    Json → Option (α × β)
  | array [a, b] => do return (← first? a, ← second? b)
  | _ => none

/-- The value of a name that an object has at most once. -/
def member? (members : List (String × Json)) (name : String) : Option (Option Json) :=
  match members.filter (·.1 == name) with
  | [] => some none
  | [(_, value)] => some (some value)
  | _ => none

/-- The fields of a record in the order of their names, where absent ones are `none`. An object may
leave out any field but must not repeat one, and unless the record is open, it must not have other
members. An array gives the fields from the first on and may be shorter than the record. -/
def fields? (names : List String) (isOpen : Bool) : Json → Option (List (Option Json))
  | object members =>
    if isOpen || members.all (fun m => names.contains m.1) then names.mapM (member? members)
    else none
  | array items =>
    if items.length ≤ names.length then
      some (items.map some ++ List.replicate (names.length - items.length) none)
    else none
  | _ => none

end Json

end TableLexer
