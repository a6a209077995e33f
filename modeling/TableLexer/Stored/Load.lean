import TableLexer.Stored.Binary

/-!
# Loading tables

Stored tables are recognised by their first bytes, not by a file name. Whatever is read goes through
the same check, so loaded tables can be scanned with just as compiled ones.
-/

namespace TableLexer

namespace Tables

/-- Why stored tables cannot be loaded. -/
inductive LoadError where
  /-- The text is not JSON or not the record of tables. -/
  | notJson
  | notBinary (e : Binary.Error)
  /-- The parts were read, but make up no tables. -/
  | defective (d : Defect)
  deriving DecidableEq

/-- The wording of a failure to load. -/
def LoadError.message : LoadError → String
  | notJson => "failed to parse tables JSON"
  | notBinary e => e.message
  | defective d => "invalid tables: " ++ d.message

/-- The tables that parts make up. -/
def ofStoredParts (p : TableParts) : Except LoadError Tables := p.assemble.mapError .defective

/-- Tables from JSON. -/
def ofJson (bytes : List UInt8) : Except LoadError Tables :=
  match (Json.read? bytes).bind TableParts.ofJson? with
  | some p => ofStoredParts p
  | none => .error .notJson

/-- Tables from the binary form. -/
def ofBinary (bytes : List UInt8) : Except LoadError Tables :=
  match Binary.decode bytes with
  | .ok p => ofStoredParts p
  | .error e => .error (.notBinary e)

/-- Tables from either form. -/
def load (bytes : List UInt8) : Except LoadError Tables :=
  if Binary.magic.isPrefixOf bytes then ofBinary bytes else ofJson bytes

end Tables

end TableLexer
