set_option autoImplicit false

namespace Envelope

inductive Level where
  | debug
  | warn
deriving DecidableEq, Repr

structure Event where
  level : Level
  message : String
  fields : List (String × String) := []
deriving DecidableEq, Repr

end Envelope
