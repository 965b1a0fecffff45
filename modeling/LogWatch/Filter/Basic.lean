import LogWatch.Filter.Expr
import LogWatch.Filter.Lexeme

/-!
# Filters

A filter text is compiled once and then asked about every event.  A blank text accepts
every event.  `select` keeps the accepted events in their order, up to a cap.
-/

namespace LogWatch

/-- A compiled filter: its text and its tree, `none` for the one that accepts all. -/
structure Filter where
  text : String
  expr : Option Filter.Expr

namespace Filter

def matchAll : Filter := ⟨"", none⟩

def compile (s : String) : Except Refusal Filter :=
  if Text.isBlankText s then .ok matchAll
  else
    match Tokens.ofText s >>= Expr.ofTokens with
    | .ok expr => .ok ⟨s, some expr⟩
    | .error fault => .error ⟨s, fault⟩

def isMatchAll (f : Filter) : Bool := f.expr.isNone

/-- The filter accepts the event. -/
def accepts (f : Filter) (e : Event) : Bool :=
  match f.expr with
  | none => true
  | some expr => expr.holds e

/-- The accepted events in their order, the first `cap` of them if there is a cap. -/
def select (f : Filter) (cap : Option Nat) (events : List Event) : List Event :=
  let accepted := events.filter f.accepts
  match cap with
  | none => accepted
  | some n => accepted.take n

end Filter
end LogWatch
