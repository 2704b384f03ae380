import Stencil.Value.Basic

/-!
Contract: what a host lets templates call.

Owns:
- the arguments of a call;
- filters, tests, functions and methods, each of which answers or fails with a reason.

What a host lets templates call is taken as a function of its arguments: it answers the same
whenever it is called with the same ones.

Does not own: which of them an environment has (`Stencil.Host.Environment`).
-/

set_option autoImplicit false

namespace Stencil.Host

/-- The arguments of a call, by position and by keyword. -/
structure Arguments where
  positional : List Value
  keywords : Table Value

abbrev Filter := Value → Arguments → Except String Value

abbrev Test := Value → Arguments → Except String Bool

abbrev Function := Arguments → Except String Value

abbrev Method := Value → Arguments → Except String Value

end Stencil.Host
