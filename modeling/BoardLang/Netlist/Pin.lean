/-!
# Pins and pin references

A pin is a point where a module can be wired; the pins that a module offers are its ports. Inside
a module, a pin reference names one of the module's own ports or one of a child's. References are
also written as two numbers: module 0 is the module itself and module `i + 1` its child `i`.
-/

namespace BoardLang.Netlist

inductive PinKind where
  | passive
  | power
  | input
  | pushPull
  | openDrain
  | triState
  | analogInput
  | analogOutput
deriving DecidableEq, Repr

structure Pin where
  kind : PinKind
  name : String
deriving DecidableEq, Repr

/-- A pin as seen from a module. -/
inductive PinRef where
  | port (pin : Nat)
  | child (index pin : Nat)
deriving DecidableEq, Repr

namespace PinRef

/-- The number of the module that owns the pin. -/
def module : PinRef → Nat
  | port _ => 0
  | child index _ => index + 1

def pin : PinRef → Nat
  | port pin => pin
  | child _ pin => pin

def ofNumbers : (module pin : Nat) → PinRef
  | 0, pin => port pin
  | index + 1, pin => child index pin

@[simp] theorem module_ofNumbers (m p : Nat) : (ofNumbers m p).module = m := by
  cases m <;> rfl

@[simp] theorem pin_ofNumbers (m p : Nat) : (ofNumbers m p).pin = p := by
  cases m <;> rfl

/-- The two numbers determine the reference. -/
@[simp] theorem ofNumbers_module_pin (r : PinRef) : ofNumbers r.module r.pin = r := by
  cases r <;> rfl

end PinRef

/-- A net: the pins that are tied together. -/
abbrev Net := List PinRef

end BoardLang.Netlist
