import BoardLang.Token.Basic

/-!
# Leaves of the language

What a single token can stand for: a name, a number, and the value of a passive component.
-/

namespace BoardLang

/-- A name, with the token that gives it. -/
structure Identifier where
  token : Token
deriving DecidableEq, Repr

namespace Identifier

def name (i : Identifier) : String := i.token.literal

def span (i : Identifier) : Span := i.token.span

end Identifier

/-- A number of 64 bits, with the token that gives it. -/
structure IntLiteral where
  token : Token
  value : UInt64
deriving DecidableEq, Repr

def IntLiteral.span (n : IntLiteral) : Span := n.token.span

inductive Passive where
  | resistor
  | inductor
  | capacitor
deriving DecidableEq, Repr

def Passive.expressionName : Passive → String
  | resistor => "ResistorExpr"
  | inductor => "InductorExpr"
  | capacitor => "CapacitorExpr"

structure PassiveExpr where
  component : Passive
  value : UInt64
deriving DecidableEq, Repr

namespace PassiveExpr

def ofInt (component : Passive) (n : IntLiteral) : PassiveExpr := ⟨component, n.value⟩

def describe (e : PassiveExpr) : String :=
  e.component.expressionName ++ " \x7b value: " ++ toString e.value.toNat ++ " \x7d"

end PassiveExpr

end BoardLang
