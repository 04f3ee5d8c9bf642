import OnScreen.Decimal.Shortest
import OnScreen.Text.Quoted

namespace OnScreen.Json

/-!
# Why a JSON text is refused

A text is refused because it is malformed, because it ends too early, or because it is well formed
and yet does not say what it should: a mismatch.
-/

/-- How numbers with a fraction or an exponent are written in messages. -/
def realStyle : Decimal.RealStyle := ⟨-5, 15, "e", "+"⟩

/-- What stands where something else was expected. -/
inductive Found where
  | null
  | boolean (b : Bool)
  | integer (n : Int)
  | real (x : Decimal.Binary64)
  | string (s : String)
  | sequence
  | map
  deriving DecidableEq, Repr

/-- How messages speak of what was found. -/
def Found.describe : Found → String
  | null => "null"
  | boolean b => "boolean `" ++ toString b ++ "`"
  | integer n => "integer `" ++ toString n ++ "`"
  | real x => "floating point `" ++ realStyle.render x ++ "`"
  | string s => "string " ++ Text.quoted s
  | sequence => "sequence"
  | map => "map"

/-- How a well-formed text can fail to say what it should. -/
inductive Mismatch where
  | missingField (name : String)
  | duplicateField (name : String)
  | unknownVariant (name : String) (known : List String)
  | invalidType (found : Found) (expected : String)
  | invalidValue (found : Found) (expected : String)
  | invalidLength (length : Nat) (expected : String)
  deriving DecidableEq, Repr

/-- The text of a mismatch. -/
def Mismatch.message : Mismatch → String
  | missingField name => "missing field `" ++ name ++ "`"
  | duplicateField name => "duplicate field `" ++ name ++ "`"
  | unknownVariant name known =>
    "unknown variant `" ++ name ++ "`, expected one of " ++
      String.intercalate ", " (known.map fun k => "`" ++ k ++ "`")
  | invalidType found expected => "invalid type: " ++ found.describe ++ ", expected " ++ expected
  | invalidValue found expected => "invalid value: " ++ found.describe ++ ", expected " ++ expected
  | invalidLength length expected =>
    "invalid length " ++ toString length ++ ", expected " ++ expected

/-- Why a text is refused. -/
inductive ReadError where
  /-- Some character cannot stand where it stands. -/
  | malformed
  /-- More text was needed. -/
  | truncated
  | mismatch (m : Mismatch)
  deriving DecidableEq, Repr

/-- The outcome of reading: a text may be refused.  Readers that take something off the start of a
    text pair it with the text that is left. -/
abbrev Attempt := Except ReadError

end OnScreen.Json
