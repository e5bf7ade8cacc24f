import Lectern.Markdown.Tree
import Lectern.Unicode.Punctuation

/-!
# Emphasis

Runs of `*`, `_` and `~` mark emphasis. Whether a run can open or close an element depends on the
characters around it; which runs belong together is decided from left to right, each closing run
with the nearest opening one that fits. Runs that find no partner are text.
-/

namespace Lectern.Markdown

open Unicode (isBlank isPunctuation)

/-- A **run** of one delimiter, with what its surroundings allow. -/
structure DelimiterRun where
  mark : Char
  count : Nat
  canOpen : Bool
  canClose : Bool
deriving Repr

/-- Whether a run before `next` and after `before` can open an element. -/
def opensEmphasis (mark : Char) (count : Nat) (before next : Option Char) : Bool :=
  match next with
  | none => false
  | some next =>
    if isBlank next then false
    else match before with
      | none => true
      | some before =>
        (mark == '*' && !isPunctuation next) || (mark == '~' && count > 1) ||
          (mark == '~' && before == '~' && !isPunctuation next) ||
          isBlank before || isPunctuation before

/-- Whether a run before `next` and after `before` can close an element. -/
def closesEmphasis (mark : Char) (count : Nat) (before next : Option Char) : Bool :=
  match before with
  | none => false
  | some before =>
    if isBlank before then false
    else match next with
      | none => true
      | some next =>
        ((mark == '*' || (mark == '~' && count > 1)) && !isPunctuation before) ||
          (mark == '~' && before == '~') || isBlank next || isPunctuation next

/-- A part of a line before emphasis is resolved. -/
inductive InlineNode where
  | tree (tree : Tree)
  | run (run : DelimiterRun)
deriving Repr

/-- A run that may still open an element, and what follows it, latest first. -/
structure Opener where
  mark : Char
  count : Nat
  /-- The length of the whole run, of which a part may be used up. -/
  length : Nat
  /-- Whether the run could close as well as open. -/
  both : Bool
  content : List Tree
deriving Repr

/-- The trees so far, latest first: those after each opener, innermost opener first, and those
before all openers. -/
structure EmphasisState where
  openers : List Opener := []
  base : List Tree := []
deriving Repr

namespace EmphasisState

/-- The state after one more tree. -/
def push (state : EmphasisState) (tree : Tree) : EmphasisState :=
  match state.openers with
  | opener :: outer =>
    { state with openers := { opener with content := tree :: opener.content } :: outer }
  | [] => { state with base := tree :: state.base }

/-- The text of delimiters that mark nothing. -/
def delimiterText (mark : Char) (count : Nat) : Tree := .text (List.replicate count mark)

/-- An opener and its content as trees, latest first, its delimiters as text. -/
def flatten (opener : Opener) : List Tree :=
  opener.content ++ [delimiterText opener.mark opener.count]

/-- Whether an opener fits a closing run: the sum of the lengths must not be a multiple of three
when one of the runs goes both ways, unless both lengths are. Strikethrough runs have equal
lengths. -/
def fits (mark : Char) (length : Nat) (both : Bool) (opener : Opener) : Bool :=
  opener.mark == mark &&
    (if mark == '~' then opener.length == length
    else (!both && !opener.both) || (length + opener.length) % 3 != 0 || length % 3 == 0)

/-- The element of `count` delimiters around `content`: two give strong emphasis, one gives
emphasis, more give nested elements, strong inside. -/
def wrap (mark : Char) : Nat → List Tree → List Tree
  | 0, content => content
  | 1, content => [.node (if mark == '~' then .strikethrough else .emphasis) content]
  | n + 2, content => wrap mark n [.node (if mark == '~' then .strikethrough else .strong) content]

/-- The state after the delimiters of a closing run have met their openers, and the number of
delimiters left. The first number bounds the steps. -/
def closeRun (mark : Char) (length : Nat) (both : Bool) :
    Nat → Nat → EmphasisState → EmphasisState × Nat
  | 0, count, state => (state, count)
  | steps + 1, count, state =>
    if count = 0 then (state, 0)
    else match state.openers.findIdx? (fits mark length both) with
      | none => (state, count)
      | some index =>
        match state.openers[index]? with
        | none => (state, count)
        | some opener =>
          let inner := (state.openers.take index).flatMap flatten
          let content := (inner ++ opener.content).reverse
          let used := min count opener.count
          let wrapped := wrap mark used content
          let outer : EmphasisState := { state with openers := state.openers.drop (index + 1) }
          let next :=
            if used < opener.count then
              { outer with openers :=
                  { opener with count := opener.count - used, content := wrapped.reverse } ::
                    outer.openers }
            else wrapped.foldl push outer
          closeRun mark length both steps (count - used) next

/-- The state after one more part of the line. -/
def step (state : EmphasisState) : InlineNode → EmphasisState
  | .tree tree => state.push tree
  | .run run =>
    let both := run.canOpen && run.canClose
    let (state, left) :=
      if run.canClose then closeRun run.mark run.count both run.count run.count state
      else (state, run.count)
    if left = 0 then state
    else if run.canOpen then
      { state with openers := ⟨run.mark, left, run.count, both, []⟩ :: state.openers }
    else state.push (delimiterText run.mark left)

/-- All trees in order, the runs that are left as text. -/
def toTrees (state : EmphasisState) : List Tree :=
  (state.openers.flatMap flatten ++ state.base).reverse

end EmphasisState

/-- The parts of a line with **emphasis resolved**. -/
def emphasize (nodes : List InlineNode) : List Tree :=
  Tree.joinTexts (nodes.foldl EmphasisState.step {}).toTrees

end Lectern.Markdown
