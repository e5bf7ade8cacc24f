import Lectern.Markdown.Cursor

/-!
# Raw HTML in Markdown

HTML stands in a document in two ways. A **tag in a line** is an open or closing tag, a comment,
a processing instruction, a declaration or a character-data section. An **HTML block** starts at
a line that begins with such a construct, and its kind tells where it ends: at a marker that
matches the start, or at the next blank line.
-/

namespace Lectern.Markdown

/-- The rest of a text after the name of a tag. -/
def afterTagName? : Text → Option Text
  | c :: rest =>
    if c.isAlpha then some (rest.dropWhile fun c => c.isAlphanum || c == '-') else none
  | [] => none

/-- Whether `c` can stand in a property value without quotes. -/
def isBareValueChar (c : Char) : Bool := !"'\"=<>` \n".toList.contains c

/-- The rest of a text after a quoted value whose opening quote has been read. -/
def afterQuotedValue? (quote : Char) (s : Text) : Option Text :=
  match s.dropWhile (· != quote) with
  | _ :: rest => some rest
  | [] => none

/-- The rest of a text after the value of a property. -/
def afterPropertyValue? : Text → Option Text
  | '"' :: rest => afterQuotedValue? '"' rest
  | '\'' :: rest => afterQuotedValue? '\'' rest
  | c :: rest => if isBareValueChar c then some (rest.dropWhile isBareValueChar) else none
  | [] => none

/-- The rest of a text after a property: a name, and possibly a value after an equals sign. -/
def afterProperty? : Text → Option Text
  | c :: rest =>
    if c.isAlpha || c == '_' || c == ':' then
      let named := rest.dropWhile fun c => c.isAlphanum || "_.:-".toList.contains c
      match named.dropWhile isAsciiSpace with
      | '=' :: value => afterPropertyValue? (value.dropWhile isAsciiSpace)
      | _ => some named
    else none
  | [] => none

/-- The rest of a text after properties, each after white space, up to the end sign of the tag;
the number bounds their count. -/
def afterProperties? : Nat → Text → Option Text
  | 0, _ => none
  | n + 1, s =>
    let t := s.dropWhile isAsciiSpace
    match t with
    | '/' :: _ => some t
    | '>' :: _ => some t
    | _ => if t.length = s.length then none else (afterProperty? t).bind (afterProperties? n)

/-- The rest of a text after an open or closing **tag** whose `<` has been read. -/
def afterTag? : Text → Option Text
  | '/' :: s =>
    match (afterTagName? s).map (·.dropWhile isLineSpace) with
    | some ('>' :: rest) => some rest
    | _ => none
  | s =>
    match (afterTagName? s).bind fun t => afterProperties? (t.length + 1) t with
    | some ('/' :: '>' :: rest) => some rest
    | some ('>' :: rest) => some rest
    | _ => none

/-- The rest of a text after the next occurrence of `marker`. -/
def afterMarker? (marker : Text) : Text → Option Text
  | [] => if marker.isEmpty then some [] else none
  | c :: rest =>
    if marker.isPrefixOf (c :: rest) then some ((c :: rest).drop marker.length)
    else afterMarker? marker rest

/-- The rest of a text after a **tag in a line** whose `<` has been read. -/
def afterInlineHtml? : Text → Option Text
  | '!' :: '-' :: '-' :: '>' :: rest => some rest
  | '!' :: '-' :: '-' :: '-' :: '>' :: rest => some rest
  | '!' :: '-' :: '-' :: rest => afterMarker? "-->".toList rest
  | '!' :: '[' :: rest =>
    (Text.after? "CDATA[".toList rest).bind (afterMarker? "]]>".toList)
  | '!' :: c :: rest => if c.isAlpha then afterMarker? ['>'] rest else none
  | '?' :: rest => afterMarker? "?>".toList rest
  | s => afterTag? s

/-- Where an HTML block ends. -/
inductive HtmlBlockEnd where
  /-- With the line that holds the marker. -/
  | marker (text : Text)
  /-- Before the next blank line. -/
  | blankLine
deriving Repr, DecidableEq

/-- The elements whose content is not text, so that their blocks end with their closing tags. -/
def verbatimElements : List Text :=
  ["pre".toList, "style".toList, "script".toList, "textarea".toList]

/-- The elements that start a block wherever a line begins with their tags. -/
def blockElements : List Text :=
  Text.words ("address article aside base basefont blockquote body caption center col colgroup " ++
    "dd details dialog dir div dl dt fieldset figcaption figure footer form frame frameset h1 " ++
    "h2 h3 h4 h5 h6 head header hr html iframe legend li link main menu menuitem nav noframes " ++
    "ol optgroup option p param search section summary table tbody td tfoot th thead title tr " ++
    "track ul").toList

/-- Whether the line, whose `<` has been read, starts with the name of a verbatim element. -/
def startsWithElement (name line : Text) : Bool :=
  name == (line.take name.length).map Char.toLower &&
    match line.drop name.length with
    | [] => true
    | c :: _ => isAsciiSpace c || c == '>'

/-- Whether the line, whose `<` has been read, starts with a tag of a block element. -/
def startsWithBlockTag (line : Text) : Bool :=
  let line := match line with
    | '/' :: rest => rest
    | _ => line
  let name := line.takeWhile Char.isAlphanum
  blockElements.contains (name.map Char.toLower) &&
    match line.drop name.length with
    | [] => true
    | '/' :: '>' :: _ => true
    | c :: _ => c == ' ' || c == '\t' || c == '\n' || c == '>'

/-- How an HTML block ends that may also interrupt a paragraph, for a line whose `<` has been
read. -/
def interruptingHtmlEnd? (line : Text) : Option HtmlBlockEnd :=
  match verbatimElements.find? (startsWithElement · line) with
  | some name => some (.marker ("</".toList ++ name ++ ['>']))
  | none =>
    match line with
    | '!' :: '-' :: '-' :: _ => some (.marker "-->".toList)
    | '?' :: _ => some (.marker "?>".toList)
    | '!' :: c :: _ =>
      if c.isAlpha then some (.marker ['>'])
      else if (Text.after? "![CDATA[".toList line).isSome then some (.marker "]]>".toList)
      else none
    | _ => if startsWithBlockTag line then some .blankLine else none

/-- How the HTML block ends that a line starts, if it starts one; the line's `<` has been read. A
line that holds one whole tag starts a block, but does not interrupt a paragraph. -/
def htmlBlockEnd? (line : Text) : Option HtmlBlockEnd :=
  match interruptingHtmlEnd? line with
  | some ending => some ending
  | none =>
    match afterTag? (line.takeWhile (· != '\n')) with
    | some rest => if isBlankLine rest then some .blankLine else none
    | none => none

end Lectern.Markdown
