import Lectern.Text

/-!
# Escaping

Two escapes for the two places where a text can stand in HTML. `escapeHtml` serves element
content and ordinary attributes. `escapeAttribute` serves the attributes of component tags: it
leaves everything but `&`, the double quote and the line feed alone, so a component receives the
expression that its author wrote, and the tag stays on one line. `unescapeAttribute` reads such
a value back.
-/

namespace Lectern.Markup

/-- The form of a character in element content. -/
def escapeHtmlChar (c : Char) : Text :=
  match c with
  | '&' => "&amp;".toList
  | '<' => "&lt;".toList
  | '>' => "&gt;".toList
  | '"' => "&quot;".toList
  | _ => [c]

/-- The **escaped text**: without `<`, `>` or a double quote, and each `&` starts an entity. -/
def escapeHtml (s : Text) : Text := s.flatMap escapeHtmlChar

/-- Whether escaping `c` changes it. -/
def isHtmlSpecial (c : Char) : Bool := c == '&' || c == '<' || c == '>' || c == '"'

/-- The form of a character in a component's attribute. -/
def escapeAttributeChar (c : Char) : Text :=
  match c with
  | '&' => "&amp;".toList
  | '"' => "&quot;".toList
  | '\n' => "&#10;".toList
  | _ => [c]

/-- The **attribute value** of a text: without a double quote or a line feed. -/
def escapeAttribute (s : Text) : Text := s.flatMap escapeAttributeChar

/-- The text whose attribute value is `s`. The entity of `&` is read last, so the text that it
gives is not read again. -/
def unescapeAttribute (s : Text) : Text :=
  Text.replace "&amp;".toList ['&']
    (Text.replace "&quot;".toList ['"'] (Text.replace "&#10;".toList ['\n'] s))

end Lectern.Markup
