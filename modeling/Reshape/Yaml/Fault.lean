import Reshape.Fault

/-! Why a YAML text has no value. -/

namespace Reshape.Yaml

/-- Why a scalar cannot be read in the way that its form or its tag asks for. -/
inductive ScalarFault
  | calendar (fault : CalendarFault)
  | integer (base : Nat) (text : String)
  | tooManyDigits (count : Nat)
  | double (text : String)
  | codePoint
  deriving DecidableEq, Repr

def ScalarFault.message : ScalarFault → String
  | .calendar f => f.message
  | .integer b s => "invalid literal for int() with base " ++ toString b ++ ": " ++ Text.quoted s
  | .tooManyDigits n => (Json.Fault.tooManyDigits n).message
  | .double s => "could not convert string to float: " ++ Text.quoted s
  | .codePoint => "chr() arg not in range(0x110000)"

/-- A text that does not follow the format, a scalar that cannot be read, or an error that no rule
covers. -/
inductive Fault
  | malformed
  | unreadable (fault : ScalarFault)
  | crash (c : Crash)
  deriving DecidableEq, Repr

end Reshape.Yaml
