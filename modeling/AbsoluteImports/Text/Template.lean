import AbsoluteImports.Text.Basic

/-!
# Templates

A message with places for arguments: `%s` takes a text, `%d` a number, and `%%` is a percent
sign. Arguments are used in order.
-/

namespace AbsoluteImports.Text

inductive Argument where
  | text (t : Text)
  | number (n : Int)
  deriving DecidableEq, Repr

def Argument.shown : Argument → Text
  | text t => t
  | number n => (toString n).toList

def fill : Text → List Argument → Text
  | [], _ => []
  | '%' :: '%' :: r, args => '%' :: fill r args
  | '%' :: 's' :: r, a :: args => a.shown ++ fill r args
  | '%' :: 'd' :: r, a :: args => a.shown ++ fill r args
  | c :: r, args => c :: fill r args

end AbsoluteImports.Text
