import AbsoluteImports.Config.Json
import AbsoluteImports.Hcl.Evaluation

/-!
# Configurations as HCL

Attributes with the names of the fields of a configuration. The variables of the environment
are the members of `env`.
-/

namespace AbsoluteImports.Config

abbrev Environment := List (Text × Text)

/-- The values that expressions may use. -/
def hclScope (env : Environment) : Hcl.Scope :=
  let named := env.filter fun v => !v.1.isEmpty
  [("env".toList, .object (named.map fun (name, value) =>
    (Text.composed name, .text (Text.composed value))))]

def hclTexts? : Hcl.Value → Option (List Text)
  | .null => some []
  | .tuple items => items.mapM Hcl.Value.toText?
  | _ => none

def hclInt? (v : Hcl.Value) : Option Int := do
  let n ← (← v.toNumber?).toInt?
  if inRange n then some n else none

def hclField? (c : Config) (f : Field) (v : Hcl.Value) : Option Config :=
  match f with
  | .directories => (hclTexts? v).map fun ts => { c with directories := ts }
  | .exclude => (hclTexts? v).map fun ts => { c with exclude := ts }
  | .workers => (hclInt? v).map fun n => { c with workers := n }
  | .dryRun => v.toBool?.map fun b => { c with dryRun := b }

def hclAttribute? (scope : Hcl.Scope) (c : Config) : Text × Hcl.Expr → Option Config
  | (name, e) => do hclField? c (← Field.ofName? name) (← e.eval? scope)

/-- The configuration of the attributes of a file, in which no blocks may stand. -/
def ofHcl? (env : Environment) (b : Hcl.Body) : Option Config :=
  if b.hasBlocks then none else b.attributes.foldlM (hclAttribute? (hclScope env)) empty

def hclText? (content : Bytes) : Option Text :=
  (Utf8.decode? content).map fun
    | c :: r => if c = Char.ofNat 0xFEFF then r else c :: r
    | [] => []

def hclBody? (content : Bytes) : Option Hcl.Body := (hclText? content).bind Hcl.parse?

end AbsoluteImports.Config
