import Smpp.Library.View

/-!
# Octet strings and failures

The bottom layer of the development: {lit}`std::string`, {lit}`std::vector<uint8_t>`
and {lit}`std::span<const uint8_t>` are all octet strings, and a C++ exception is a
{lit}`Fault`.  Undefined behaviour of a view operation has its own fault, so that
memory safety of a decoder is the absence of that fault.
-/

namespace Smpp

/-- Contents of a string, a vector or a span of octets. -/
abbrev Octets := List UInt8

/-- Ways in which the code can leave a function other than by returning. -/
inductive Fault where
  | lengthError (what : String)
  | logicError (what : String)
  | outOfRange
deriving DecidableEq, Repr

instance : OutOfRange Fault := ⟨.outOfRange⟩

/-- {lit}`e.what()` of the exception behind a fault. -/
def Fault.what : Fault → String
  | .lengthError what | .logicError what => what
  | .outOfRange => ""

/-- Functions that advance a {lit}`std::span<const uint8_t>*`. -/
abbrev Reader (α : Type) := View Fault UInt8 α

/-- Functions that append to a {lit}`std::vector<uint8_t>*`. -/
abbrev Writer (α : Type) := EStateM Fault Octets α

/-- {lit}`vec->insert(vec->end(), ...)`. -/
def append (bs : Octets) : Writer Unit := fun vec => .ok () (vec ++ bs)

@[simp]
theorem run_append (bs vec : Octets) : (append bs).run vec = .ok () (vec ++ bs) :=
  rfl

end Smpp
