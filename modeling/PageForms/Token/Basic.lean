import PageForms.Text.Position

/-!
# Tokens

The lexical units of the notation: brackets, marks that wrap or discard the datum behind them, and
the atoms.
-/

namespace PageForms

/-- The kind of a token. -/
inductive TokenKind where
  | openParen
  | closeParen
  | openBracket
  | closeBracket
  | openBrace
  | closeBrace
  /-- `#` and an opening brace. -/
  | openSet
  /-- `#` and an opening parenthesis. -/
  | openFn
  /-- `#_`, which drops the next datum. -/
  | discard
  | varQuote
  | quote
  | deref
  | metadata
  | regex
  | character
  | string
  /-- A symbol, keyword, number, `nil`, `true` or `false`. -/
  | atom
deriving DecidableEq, Repr, Inhabited

/-- A token with the text it was written as and the place where it starts. -/
structure Token where
  kind : TokenKind
  text : String
  place : Text.Position
deriving DecidableEq, Repr

end PageForms
