import Lectern.Text.Scan

/-!
# Shorthands

A shorthand is a short token of the source that stands for a longer text. Shorthands are plain
rewrites of the text, made before any structure is looked for. The rules of a set run in order,
and each sees what the one before it made.

The standard set writes `{L}` as the name of the calculus, `{l}` as its letter, and the older
form of inline code, a capital `L` before a quoted body, as a `code` element. That `L` must stand
at the edge of a word, so the `L` of a `dL` marker is never taken for it.
-/

namespace Lectern

open Text

/-- A rule that rewrites all its occurrences in a text. -/
inductive Shorthand where
  /-- Every occurrence of a token becomes a fixed text. -/
  | literal (token replacement : Text)
  /-- An `L` before a quoted body becomes a `code` element around the body. -/
  | quotedCode
deriving Repr, DecidableEq

namespace Shorthand

/-- The finder of a token. -/
def token? (token : Text) : Finder Unit := fun _ s =>
  if token.isPrefixOf s then some ((), token.length) else none

/-- The finder of the older form of inline code. -/
def quotedCode? : Finder Text := quoted? "L`".toList

/-- A `code` element around a body that is taken as it stands. -/
def codeElement (body : Text) : Text := "<code>".toList ++ body ++ "</code>".toList

/-- The text that a rule makes of `s`. A token that is empty occurs at both ends of the text
and between any two characters. -/
def apply : Shorthand → Text → Text
  | .literal [] replacement, s => replacement ++ s.flatMap fun c => c :: replacement
  | .literal token replacement, s => rewriteHits (fun _ => replacement) (pieces (token? token) s)
  | .quotedCode, s => rewriteHits codeElement (pieces quotedCode? s)

/-- Whether a rule occurs in `s` at all. -/
def occursIn : Shorthand → Text → Bool
  | .literal [] _, _ => true
  | .literal token _, s => !(hits (pieces (token? token) s)).isEmpty
  | .quotedCode, s => !(hits (pieces quotedCode? s)).isEmpty

/-- The characters that a search pattern gives a meaning of its own. -/
def isPatternSign (c : Char) : Bool := "\\.+*?()|[]\x7b\x7d^$#&-~".toList.contains c

/-- The **search pattern** that matches exactly the token: each sign of the pattern language
stands behind a backslash. -/
def pattern (token : Text) : Text :=
  token.flatMap fun c => if isPatternSign c then ['\\', c] else [c]

end Shorthand

/-- An ordered set of shorthands. -/
abbrev ShorthandSet := List Shorthand

namespace ShorthandSet

/-- The standard set. -/
def standard : ShorthandSet :=
  [.literal "\x7bL\x7d".toList "λ-calculus".toList, .literal "\x7bl\x7d".toList "λ".toList,
   .quotedCode]

/-- `set` with one more token, whose rule runs last. -/
def withLiteral (set : ShorthandSet) (token replacement : Text) : ShorthandSet :=
  set ++ [.literal token replacement]

/-- The text that the rules make of `s`, one after the other. -/
def apply (set : ShorthandSet) (s : Text) : Text := set.foldl (fun text rule => rule.apply text) s

/-- Whether any rule occurs in the text that it is given. -/
def occursIn : ShorthandSet → Text → Bool
  | [], _ => false
  | rule :: rest, s => rule.occursIn s || occursIn rest (rule.apply s)

end ShorthandSet

end Lectern
