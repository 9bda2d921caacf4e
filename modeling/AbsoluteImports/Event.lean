import AbsoluteImports.Text.JsonQuoted
import AbsoluteImports.Text.Quoted

/-!
# Events

A run reports what it does as events: a level, named values and a message. They are kept as
data; `Event.line` is the form in which a terminal shows them.
-/

namespace AbsoluteImports

inductive Level where
  | trace
  | debug
  | info
  | warn
  | error
  deriving DecidableEq, Repr

def Level.rank : Level → Nat
  | trace => 0
  | debug => 1
  | info => 2
  | warn => 3
  | error => 4

def Level.name : Level → String
  | trace => "trace"
  | debug => "debug"
  | info => "info"
  | warn => "warn"
  | error => "error"

def Level.letters : Level → String
  | trace => "TRC"
  | debug => "DBG"
  | info => "INF"
  | warn => "WRN"
  | error => "ERR"

inductive Value where
  | text (t : Text)
  | number (n : Int)
  | flag (b : Bool)
  | texts (ts : List Text)
  deriving DecidableEq, Repr

/-- Something a run reports. -/
structure Event where
  level : Level
  fields : List (String × Value)
  message : Text
  deriving DecidableEq, Repr

namespace Event

/-- The events that are at least as important as a level; none when no level is given. -/
def atLeast (level : Option Level) (es : List Event) : List Event :=
  es.filter fun e => level.any fun l => l.rank ≤ e.level.rank

def within (name : String) (v : Value) (e : Event) : Event :=
  { e with fields := (name, v) :: e.fields }

/-! ### On a terminal -/

def needsQuotes (t : Text) : Bool :=
  t.any fun c => c.toNat < 0x21 || 0x7E < c.toNat || c == '\\' || c == '"'

def valueText : Value → Text
  | .text t => if needsQuotes t then (Text.quoted t).toList else t
  | .number n => (toString n).toList
  | .flag b => (if b then "true" else "false").toList
  | .texts ts => '[' :: Text.joinWith ',' (ts.map Text.jsonQuoted) ++ [']']

/-- Puts a field into a list ordered by name, after those of the same name. -/
def insertField (x : String × Value) : List (String × Value) → List (String × Value)
  | [] => [x]
  | y :: ys => if y.1 < x.1 then y :: insertField x ys else x :: y :: ys

def lineFields (e : Event) : List (String × Value) :=
  e.fields.filter (·.1 == "error") ++
    (e.fields.filter (·.1 != "error")).foldr insertField []

/-- The line of an event, with the time that stands first in it. -/
def line (time : String) (e : Event) : Text :=
  let parts := [time.toList, e.level.letters.toList] ++
    (if e.message.isEmpty then [] else [e.message]) ++
    e.lineFields.map fun (name, v) => name.toList ++ '=' :: valueText v
  Text.joinWith ' ' parts ++ ['\n']

end Event

end AbsoluteImports
