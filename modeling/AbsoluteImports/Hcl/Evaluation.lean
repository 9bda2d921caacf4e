import AbsoluteImports.Hcl.Syntax
import AbsoluteImports.Hcl.Value
import AbsoluteImports.Text.Composed

/-!
# Evaluation of HCL expressions

The value of an expression under an assignment of values to variables. An expression that uses
an unknown name, or a value of a wrong kind, has no value. Texts are in composed form.
-/

namespace AbsoluteImports.Hcl

abbrev Scope := List (Text × Value)

def UnaryOp.apply? : UnaryOp → Value → Option Value
  | .negate, v => v.toNumber?.map (.number ·.neg)
  | .not, v => v.toBool?.map (.bool !·)

def BinaryOp.apply? (op : BinaryOp) (a b : Value) : Option Value :=
  let truth := fun (f : Bool → Bool → Bool) => do
    some (Value.bool (f (← a.toBool?) (← b.toBool?)))
  let order := fun (f : Number → Number → Bool) => do
    some (Value.bool (f (← a.toNumber?) (← b.toNumber?)))
  let arithmetic := fun (f : Number → Number → Option Number) => do
    (f (← a.toNumber?) (← b.toNumber?)).map Value.number
  match op with
  | .or => truth (· || ·)
  | .and => truth (· && ·)
  | .equal => some (.bool (a.same b))
  | .notEqual => some (.bool !(a.same b))
  | .greater => order fun x y => y.lt x
  | .less => order Number.lt
  | .greaterEqual => order fun x y => !x.lt y
  | .lessEqual => order fun x y => !y.lt x
  | .add => arithmetic Number.add?
  | .subtract => arithmetic Number.sub?
  | .multiply => arithmetic Number.mul?
  | .divide => arithmetic Number.div?
  | .remainder => arithmetic Number.mod?

/-- The greatest depth of tuples in tuples between which a condition can choose. -/
def kindDepth : Nat := 64

/-- The value that a condition chooses. An alternative without a value does no harm unless it
is chosen; otherwise both alternatives must have a common kind. -/
def choose? (condition : Value) (yes no : Option Value) : Option Value := do
  let kind ← match yes, no with
    | some y, some n => Kind.common? kindDepth [y.kind, n.kind]
    | _, _ => some .any
  let chosen ← if ← condition.toBool? then yes else no
  chosen.convert? kind

mutual

def Expr.eval? (scope : Scope) : Expr → Option Value
  | .null => some .null
  | .bool b => some (.bool b)
  | .number n => some (.number n)
  | .text t => some (.text (Text.composed t))
  | .template parts => (templateText? scope parts).map fun t => .text (Text.composed t)
  | .variable name => scope.lookup name
  | .attribute e name => do (← e.eval? scope).member? (Text.composed name)
  | .index e key => do (← e.eval? scope).part? (← key.eval? scope)
  | .tuple items => (evalItems? scope items).map .tuple
  | .object items => (evalMembers? scope items).map .object
  | .unary op e => do op.apply? (← e.eval? scope)
  | .binary op a b => do op.apply? (← a.eval? scope) (← b.eval? scope)
  | .conditional c yes no => do choose? (← c.eval? scope) (yes.eval? scope) (no.eval? scope)
  | .unsupported => none

def evalItems? (scope : Scope) : List Expr → Option (List Value)
  | [] => some []
  | e :: es => do
    let v ← e.eval? scope
    let vs ← evalItems? scope es
    some (v :: vs)

/-- The members of an object; of two with one name the later counts. -/
def evalMembers? (scope : Scope) : List (Expr × Expr) → Option (List (Text × Value))
  | [] => some []
  | (key, e) :: rest => do
    let name ← (← key.eval? scope).toText?
    let v ← e.eval? scope
    let members ← evalMembers? scope rest
    some (if (members.lookup name).isSome then members else (name, v) :: members)

def templateText? (scope : Scope) : List Expr → Option Text
  | [] => some []
  | e :: es => do
    let t ← (← e.eval? scope).toText?
    let ts ← templateText? scope es
    some (t ++ ts)

end

end AbsoluteImports.Hcl
