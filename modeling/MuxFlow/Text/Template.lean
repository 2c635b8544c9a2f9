import MuxFlow.Text.Quoted

/-!
# Message templates

A template is a text with places for arguments: `%s` takes a text, `%d` a
number, `%q` either in quotes and `%v` either as it is; `%%` is a percent sign.
A template that does not fit its arguments is still rendered: a place without an
argument, an argument of the wrong sort and the arguments that are left over are
spelled out inside `%!…`.
-/

namespace MuxFlow.Text

/-- What fills a place of a template. -/
inductive Argument where
  | text (s : String)
  | number (n : Int)
  deriving DecidableEq, Repr

namespace Argument

/-- The argument as it is. -/
def plain : Argument → String
  | text s => s
  | number n => toString n

/-- The name of the sort of an argument. -/
def sort : Argument → String
  | text _ => "string"
  | number _ => "int"

/-- The argument with its sort, as `int=3`. -/
def described (a : Argument) : String := a.sort ++ "=" ++ a.plain

/-- The argument in quotes: a number stands for the character it is the code of,
or for the replacement character when it is the code of none. -/
def quoted : Argument → String
  | text s => quote s
  | number n =>
      let code := if 0 ≤ n then n.toNat else 0x110000
      quoteOne (if code.isValidChar then Char.ofNat code else Char.ofNat 0xfffd)

/-- The argument at a place marked with `verb`. -/
def render (verb : Char) (a : Argument) : String :=
  match verb, a with
  | 'v', a => a.plain
  | 's', text s => s
  | 'd', number n => toString n
  | 'q', a => a.quoted
  | verb, a => "%!" ++ verb.toString ++ "(" ++ a.described ++ ")"

end Argument

/-- What is said about arguments that no place took. -/
def surplus (args : List Argument) : String :=
  if args.isEmpty then ""
  else "%!(EXTRA " ++ String.intercalate ", " (args.map Argument.described) ++ ")"

/-- A template, read from left to right, with its arguments in order. -/
def fillChars : List Char → List Argument → String
  | [], args => surplus args
  | '%' :: [], args => "%!(NOVERB)" ++ surplus args
  | '%' :: '%' :: rest, args => "%" ++ fillChars rest args
  | '%' :: verb :: rest, [] => "%!" ++ verb.toString ++ "(MISSING)" ++ fillChars rest []
  | '%' :: verb :: rest, a :: args => a.render verb ++ fillChars rest args
  | c :: rest, args => c.toString ++ fillChars rest args

/-- A template with its places filled. Without arguments there is nothing to
fill, and the text is taken as it is, percent signs included. -/
def fill (template : String) (args : List Argument) : String :=
  if args.isEmpty then template else fillChars template.toList args

end MuxFlow.Text
