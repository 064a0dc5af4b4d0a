/-
# Compdb.Json.Fault — why a JSON text cannot be read

A text is judged from left to right and the first problem wins, whether it lies in the
notation or in the shape of the value.
-/
import Compdb.Decimal
import Compdb.Json.Number
import Compdb.Text.Quoted

namespace Compdb.Json

set_option autoImplicit false

/-- A value which is not of the expected shape, as messages name it. -/
inductive Found where
  | null
  | bool (value : Bool)
  | number (value : Number)
  | string (value : Text)
  | array
  | object
  deriving DecidableEq, Repr

def Found.message : Found → Text
  | .null => "null".toList
  | .bool true => "boolean \x60true\x60".toList
  | .bool false => "boolean \x60false\x60".toList
  | .number (.integer n) => "integer \x60".toList ++ (toString n).toList ++ ['\x60']
  | .number (.float bits) => "floating point \x60".toList ++ Decimal.ofBits bits ++ ['\x60']
  | .string value => "string ".toList ++ Text.quoted value
  | .array => "sequence".toList
  | .object => "map".toList

/-- A value which is well-formed but not what was expected. -/
inductive Mismatch where
  | missingField (name : Text)
  | duplicateField (name : Text)
  | wrongType (found : Found) (expected : Text)
  | wrongLength (length : Nat) (expected : Text)
  | unknownVariant (name : Text) (expected : Text)
  deriving DecidableEq, Repr

def Mismatch.message : Mismatch → Text
  | .missingField name => "missing field \x60".toList ++ name ++ ['\x60']
  | .duplicateField name => "duplicate field \x60".toList ++ name ++ ['\x60']
  | .wrongType found expected =>
      "invalid type: ".toList ++ found.message ++ ", expected ".toList ++ expected
  | .wrongLength length expected =>
      "invalid length ".toList ++ Text.ofNat length ++ ", expected ".toList ++ expected
  | .unknownVariant name expected =>
      "unknown variant \x60".toList ++ name ++ "\x60, expected ".toList ++ expected

/-- Why a text cannot be read. -/
inductive Fault where
  | truncated
  | malformed
  | mismatch (reason : Mismatch)
  deriving DecidableEq, Repr

end Compdb.Json
