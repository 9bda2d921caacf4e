import AbsoluteImports.Change
import AbsoluteImports.Encoding

/-!
# Documents

A text is cut after each line feed. Every line keeps its own terminator, so that
joining the lines gives the text back, whatever mix of terminators it holds.
-/

namespace AbsoluteImports

/-- Lines and their terminators, side by side, with the encoding of the file. -/
structure Document where
  /-- The lines without their terminators. -/
  lines : List Text
  /-- The terminators: a line feed, a carriage return with a line feed, or nothing
  after a last line that is not terminated. -/
  endings : List Text
  /-- How the document is stored. -/
  encoding : Encoding
  deriving DecidableEq, Repr

namespace Document

/-- Why the lines of a document could not be replaced. -/
inductive Error where
  | lineCount (before after : Nat)
  deriving DecidableEq, Repr

def Error.message : Error → String
  | .lineCount a b => "line count changed from " ++ toString a ++ " to " ++ toString b

/-! ### Cutting and joining -/

/-- The lines of a text, each with its terminator. -/
def cut : Text → List (Text × Text)
  | [] => []
  | '\n' :: r => ([], ['\n']) :: cut r
  | '\r' :: '\n' :: r => ([], ['\r', '\n']) :: cut r
  | c :: r =>
    match cut r with
    | [] => [([c], [])]
    | (line, ending) :: rest => (c :: line, ending) :: rest

def ofText (text : Text) (encoding : Encoding) : Document :=
  let parts := cut text
  ⟨parts.map Prod.fst, parts.map Prod.snd, encoding⟩

/-- The lines with their terminators; a line beyond the terminators has none, and
terminators beyond the lines are not used. -/
def joined : List Text → List Text → Text
  | [], _ => []
  | line :: lines, [] => line ++ joined lines []
  | line :: lines, ending :: endings => line ++ ending ++ joined lines endings

def text (d : Document) : Text := joined d.lines d.endings

/-! ### Replacing lines -/

/-- The document with other lines, of which there must be as many. -/
def withLines (d : Document) (lines : List Text) : Except Error Document :=
  if lines.length = d.lines.length then .ok { d with lines := lines }
  else .error (.lineCount d.lines.length lines.length)

/-! ### Storing -/

def ofContent (content : Bytes) : Except Encoding.Error Document :=
  (Encoding.decode content).map fun (text, encoding) => ofText text encoding

def content (d : Document) : Bytes := Encoding.encode d.text d.encoding

end Document

end AbsoluteImports
