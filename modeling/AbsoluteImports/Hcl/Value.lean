import AbsoluteImports.Hcl.Number

/-!
# HCL values

The values of expressions, their kinds, and the conversions between them. A text stands for a
number or a truth value where one is needed, and numbers and truth values become texts.
-/

namespace AbsoluteImports.Hcl

/-- The value of an expression. -/
inductive Value where
  | null
  | bool (b : Bool)
  | number (n : Number)
  | text (t : Text)
  | tuple (items : List Value)
  | object (members : List (Text × Value))
  deriving Repr

namespace Value

/-! ### Conversions -/

def toBool? : Value → Option Bool
  | bool b => some b
  | text t =>
    if t = "true".toList || t = ['1'] then some true
    else if t = "false".toList || t = ['0'] then some false
    else none
  | _ => none

def toNumber? : Value → Option Number
  | number n => some n
  | text t => Number.ofText? t
  | _ => none

def toText? : Value → Option Text
  | text t => some t
  | number n => some n.text
  | bool b => some (if b then "true".toList else "false".toList)
  | _ => none

/-! ### Comparison -/

mutual

def same : Value → Value → Bool
  | null, null => true
  | bool a, bool b => a == b
  | number a, number b => a.same b
  | text a, text b => a == b
  | tuple as, tuple bs => sameItems as bs
  | object as, object bs => as.length == bs.length && sameMembers as bs
  | _, _ => false

def sameItems : List Value → List Value → Bool
  | [], [] => true
  | a :: as, b :: bs => same a b && sameItems as bs
  | _, _ => false

def sameMembers : List (Text × Value) → List (Text × Value) → Bool
  | [], _ => true
  | (name, a) :: as, bs =>
    (match bs.lookup name with
      | some b => same a b
      | none => false) && sameMembers as bs

end

/-! ### Parts -/

def member? (name : Text) : Value → Option Value
  | object members => members.lookup name
  | _ => none

/-- The part of a value that a key selects: the member of an object with the text of the key
as its name, or the item of a tuple at the position of the key, counted from zero. -/
def part? : Value → (key : Value) → Option Value
  | object members, key => (toText? key).bind fun name => members.lookup name
  | tuple items, key => do
    match (← toNumber? key).toInt? with
    | some (.ofNat i) => items[i]?
    | _ => none
  | _, _ => none

end Value

/-! ### Kinds -/

inductive Kind where
  /-- The kind of null, which agrees with every kind. -/
  | any
  | bool
  | number
  | text
  | object
  | tuple (items : List Kind)
  /-- Any number of items of one kind. -/
  | list (item : Kind)
  deriving BEq, Repr

mutual

def Value.kind : Value → Kind
  | .null => .any
  | .bool _ => .bool
  | .number _ => .number
  | .text _ => .text
  | .object _ => .object
  | .tuple items => .tuple (kindsOf items)

def kindsOf : List Value → List Kind
  | [] => []
  | v :: vs => v.kind :: kindsOf vs

end

namespace Kind

def column (i : Nat) (ks : List Kind) : List Kind :=
  ks.filterMap fun
    | tuple items => items[i]?
    | _ => none

def length? : Kind → Option Nat
  | tuple items => some items.length
  | _ => none

def allItems (ks : List Kind) : List Kind :=
  ks.flatMap fun
    | tuple items => items
    | list item => [item]
    | _ => []

/-- A kind that all the given kinds can be converted to. The first argument bounds the depth
of tuples in tuples. -/
def common? : Nat → List Kind → Option Kind
  | 0, _ => none
  | depth + 1, ks =>
    match ks.filter (· != any) with
    | [] => some any
    | k :: rest =>
      let all := k :: rest
      if rest.all (· == k) then some k
      else if all.all (fun k => k == bool || k == number || k == text) then
        if all.contains text then some text else none
      else
        match k.length? with
        | some n =>
          if rest.all (fun k => k.length? == some n) then
            ((List.range n).mapM fun i => common? depth (column i all)).map tuple
          else if all.all isSequence then (common? depth (allItems all)).map list
          else none
        | none => if all.all isSequence then (common? depth (allItems all)).map list else none
where
  /-- Whether values of the kind have items. -/
  isSequence : Kind → Bool
    | tuple _ | list _ => true
    | _ => false

end Kind

mutual

def Value.convert? : Kind → Value → Option Value
  | _, .null => some .null
  | .any, v => some v
  | .text, v => v.toText?.map .text
  | .bool, v => v.toBool?.map .bool
  | .number, v => v.toNumber?.map .number
  | .object, v => some v
  | .list k, .tuple items => (convertAll? k items).map .tuple
  | .tuple ks, .tuple items => (convertEach? ks items).map .tuple
  | _, _ => none

def convertAll? (k : Kind) : List Value → Option (List Value)
  | [] => some []
  | v :: vs => do
    let w ← v.convert? k
    let ws ← convertAll? k vs
    some (w :: ws)

/-- The values as values of the kinds at the same positions. -/
def convertEach? : List Kind → List Value → Option (List Value)
  | k :: ks, v :: vs => do
    let w ← v.convert? k
    let ws ← convertEach? ks vs
    some (w :: ws)
  | _, _ => some []

end

end AbsoluteImports.Hcl
