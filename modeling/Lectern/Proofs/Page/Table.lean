import Lectern.Proofs.Page.Image

/-!
# Tables on the Page

Which tags the cells of a table have. The writer counts columns, and keeps a flag for the head and
the alignments of the table, and each of these is set back by another event. Here a table is spelled
out by the places of its cells instead: the tags of the cell at a place of a row are those of the
head or of the body, with the style of the alignment at the same place, if there is one. A table is
written as if these tags stood in the document themselves, whatever the writer has kept of the rows
and the tables before.

## Main results

* `exists_writtenAs_table`: a table is written as it is spelled out.
* `exists_run_tableMarkup`: the markup of a table, cell by cell.
* `renderEvents_spelledTrees`: the page of a document whose tables are spelled out.
* `tables_renderEvents`: the tables of a page.
-/

namespace Lectern.Markdown

/-- A **table**: the alignments of its columns, and the content of each cell of its head and of its
other rows. -/
structure Table where
  alignments : List Alignment
  head : List (List Tree)
  rows : List (List (List Tree))
deriving Repr

namespace Table

/-- A cell with its content. -/
def cell (content : List Tree) : Tree := .node .tableCell content

/-- A row behind the head. -/
def row (cells : List (List Tree)) : Tree := .node .tableRow (cells.map cell)

/-- A table as an element. -/
def tree (table : Table) : Tree :=
  .node (.table table.alignments) (.node .tableHead (table.head.map cell) :: table.rows.map row)

/-- The contents of all cells. -/
def contents (table : Table) : List (List Tree) := table.head ++ table.rows.flatten

/-- The cells of a table are those of its head and of its rows. -/
theorem forall_mem_contents {table : Table} {p : List Tree → Prop} :
    (∀ content ∈ table.contents, p content) ↔ (∀ content ∈ table.head, p content) ∧
      ∀ cells ∈ table.rows, ∀ content ∈ cells, p content := by
  rw [contents, List.forall_mem_append, List.forall_mem_flatten]

/-- The children of an element. -/
def children : Tree → List Tree
  | .leaf _ => []
  | .node _ children => children

/-- The table that an element with these parts is: the first is the head. -/
def ofParts (alignments : List Alignment) : List Tree → Table
  | [] => ⟨alignments, [], []⟩
  | head :: rows =>
    ⟨alignments, (children head).map children, rows.map fun row => (children row).map children⟩

/-- The parts of a table are read back. -/
theorem ofParts_tree (table : Table) : ofParts table.alignments
    (.node .tableHead (table.head.map cell) :: table.rows.map row) = table := by
  have hcells : ∀ cells : List (List Tree), (cells.map cell).map children = cells := fun cells => by
    rw [List.map_map]
    exact List.map_id' cells
  have hrows : (table.rows.map row).map (fun row => (children row).map children) = table.rows := by
    rw [List.map_map]
    exact (List.map_congr_left fun cells _ => hcells cells).trans (List.map_id' _)
  rw [ofParts, hrows]
  exact congrArg (Table.mk table.alignments · table.rows) (hcells table.head)

end Table

end Lectern.Markdown

namespace Lectern.Page

open Markdown

variable {style : PageStyle} {alignments : List Markdown.Alignment} {events before : List Event}
  {t t' t'' : TableState} {w w' : Writer} {name s : Text} {inImage : Event → Prop}

/-! ### Tags by their places -/

/-- The style of a column, empty without an alignment. -/
def columnStyle : Option Markdown.Alignment → Text
  | some .left => " style=\"text-align: left\"".toList
  | some .center => " style=\"text-align: center\"".toList
  | some .right => " style=\"text-align: right\"".toList
  | _ => []

/-- The tag before a cell. -/
def openCell (name : Text) (alignment : Option Markdown.Alignment) : Text :=
  '<' :: name ++ columnStyle alignment ++ ['>']

/-- The tag behind a cell. -/
def closeCell (name : Text) : Text := "</".toList ++ name ++ ['>']

/-- The element name of the cells of a head, or of other rows. -/
def cellName (inHead : Bool) : Text := if inHead then "th".toList else "td".toList

/-- Markup as a part of a document. -/
def rawLeaf (s : Text) : Markdown.Tree := .leaf (.html s)

/-- Cells **spelled out**, the first of which stands in the given column. -/
def spelledCells (name : Text) (alignments : List Markdown.Alignment) (column : Nat)
    (cells : List (List Markdown.Tree)) : List Markdown.Tree :=
  (cells.zipIdx column).flatMap fun (content, k) =>
    rawLeaf (openCell name alignments[k]?) :: content ++ [rawLeaf (closeCell name)]

/-- A row behind the head, spelled out. -/
def spelledRow (alignments : List Markdown.Alignment) (cells : List (List Markdown.Tree)) :
    List Markdown.Tree :=
  rawLeaf "<tr>".toList :: spelledCells "td".toList alignments 0 cells ++ [rawLeaf "</tr>".toList]

/-- A **table spelled out**: its tags as markup, and between them the contents of its cells. -/
def spelledTable (table : Markdown.Table) : List Markdown.Tree :=
  rawLeaf "<table>".toList :: rawLeaf "<thead><tr>".toList ::
    (spelledCells "th".toList table.alignments 0 table.head ++
      rawLeaf "</tr></thead><tbody>".toList :: (table.rows.flatMap (spelledRow table.alignments) ++
        [rawLeaf "</tbody></table>\n".toList]))

mutual

/-- A tree with its tables spelled out. -/
def spelledTree : Markdown.Tree → List Markdown.Tree
  | .leaf event => [.leaf event]
  | .node (.table alignments) parts => spelledTable (.ofParts alignments parts)
  | .node tag children => [.node tag (spelledTrees children)]

/-- Trees with their tables spelled out. -/
def spelledTrees : List Markdown.Tree → List Markdown.Tree
  | [] => []
  | tree :: trees => spelledTree tree ++ spelledTrees trees

end

/-- Whether trees hold **no table**, and no part of one. -/
def AreTableFree (trees : List Markdown.Tree) : Prop :=
  ∀ event ∈ Markdown.Tree.eventsOfList trees, Writer.turnsToTable event = false

/-- Whether the **tables of a tree are whole**: each has one head and behind it rows, these hold
cells, the contents of cells hold no tables, and no part of a table stands elsewhere. -/
inductive HasWholeTables : Markdown.Tree → Prop
  | leaf {event : Event} : event.isEdge = false → HasWholeTables (.leaf event)
  | node {tag : Tag} {children : List Markdown.Tree} : tag.isTable = false →
      tag.isTablePart = false → (∀ child ∈ children, HasWholeTables child) →
      HasWholeTables (.node tag children)
  | table {table : Markdown.Table} : (∀ content ∈ table.contents, AreTableFree content) →
      HasWholeTables table.tree

/-- A table stands in a text if the contents of its cells stand in lines. -/
theorem standsInText_table {table : Markdown.Table}
    (h : ∀ content ∈ table.contents, ∀ tree ∈ content, StandsInLine inImage tree) :
    StandsInText inImage table.tree := by
  obtain ⟨hhead, hrows⟩ := Markdown.Table.forall_mem_contents.1 h
  have hcells : ∀ cells : List (List Markdown.Tree),
      (∀ content ∈ cells, ∀ tree ∈ content, StandsInLine inImage tree) →
      ∀ tree ∈ cells.map Markdown.Table.cell, StandsInLine inImage tree := by
    intro cells hcells tree htree
    obtain ⟨content, hcontent, rfl⟩ := List.mem_map.1 htree
    exact .node rfl (hcells content hcontent)
  refine .line (.node rfl (List.forall_mem_cons.2 ⟨.node rfl (hcells _ hhead), ?_⟩))
  intro tree htree
  obtain ⟨cells, hmem, rfl⟩ := List.mem_map.1 htree
  exact .node rfl (hcells cells (hrows cells hmem))

/-- The first of several cells, spelled out. -/
theorem spelledCells_cons (name : Text) (alignments : List Markdown.Alignment) (column : Nat)
    (content : List Markdown.Tree) (cells : List (List Markdown.Tree)) :
    spelledCells name alignments column (content :: cells) =
      rawLeaf (openCell name alignments[column]?) :: (content ++
        rawLeaf (closeCell name) :: spelledCells name alignments (column + 1) cells) := by
  simp [spelledCells, List.zipIdx_cons]

/-- The events of a table that is spelled out. -/
theorem events_spelledTable (table : Markdown.Table) :
    Markdown.Tree.eventsOfList (spelledTable table) =
      [.html "<table>".toList] ++ ([.html "<thead><tr>".toList] ++
        (Markdown.Tree.eventsOfList (spelledCells "th".toList table.alignments 0 table.head) ++
          ([.html "</tr></thead><tbody>".toList] ++
            (Markdown.Tree.eventsOfList (table.rows.flatMap (spelledRow table.alignments)) ++
              [.html "</tbody></table>\n".toList])))) := by
  simp only [spelledTable, rawLeaf, Markdown.Tree.eventsOfList, Markdown.Tree.events,
    Markdown.Tree.eventsOfList_append, List.append_nil]

/-- A table as an element, spelled out. -/
theorem spelledTree_table (table : Markdown.Table) :
    spelledTree table.tree = spelledTable table := by
  rw [Markdown.Table.tree, spelledTree, Markdown.Table.ofParts_tree]

/-- Another element, spelled out. -/
theorem spelledTree_node {tag : Tag} (h : tag.isTable = false) (children : List Markdown.Tree) :
    spelledTree (.node tag children) = [.node tag (spelledTrees children)] := by
  cases tag with
  | table => cases h
  | _ => rw [spelledTree]; nofun

namespace Writer

/-! ### Spelling -/

/-- Whether a stream is **written as** another one, of which the table plays no part: from a table
before it to one behind it. -/
def WrittenAs (style : PageStyle) (t : TableState) (events : List Event) (t' : TableState)
    (spelled : List Event) : Prop :=
  ∀ w, run style (w.withTable t) events = (run style w spelled).map (·.withTable t')

/-- Streams after each other. -/
theorem WrittenAs.append {spelled more moreSpelled : List Event}
    (h : WrittenAs style t events t' spelled) (hmore : WrittenAs style t' more t'' moreSpelled) :
    WrittenAs style t (events ++ more) t'' (spelled ++ moreSpelled) := by
  intro w
  rw [run_append, run_append, h w]
  cases run style w spelled with
  | error fault => rfl
  | ok w₁ => exact hmore w₁

/-- What holds no table is written as itself. -/
theorem writtenAs_of_not_turns (style : PageStyle)
    (h : ∀ event ∈ events, turnsToTable event = false) (t : TableState) :
    WrittenAs style t events t events := by
  refine @run_of_commutes style (·.withTable t) events fun event hevent => ?_
  -- edges of footnote definitions suit no text, but they do not look at the table either
  cases hedge : event.isNoteEdge with
  | false =>
    have hsuits : event.suits false = true := by
      unfold Event.isNoteEdge at hedge
      split at hedge
      · cases hedge
      · cases hedge
      next hstart hfinish =>
        unfold Event.suits
        split
        · exact absurd rfl (hstart _)
        · exact absurd rfl hfinish
        all_goals rfl
    exact commutes_withTable style hsuits (h event hevent) t
  | true =>
    intro w
    rcases Event.eq_of_isNoteEdge hedge with ⟨label, rfl⟩ | rfl
    · rfl
    · cases houter : w.outer <;> simp [step, finish, withTable, houter, Except.map]

/-- An edge of a table or of a part of it is written as its tag. -/
theorem writtenAs_tag {event : Event}
    (h : ∀ w : Writer, step style (w.withTable t) event = .ok ((w.push s).withTable t')) :
    WrittenAs style t [event] t' [.html s] := by
  intro w
  rw [run_singleton, run_singleton, h w]
  rfl

/-- The style of a cell is that of its column. -/
theorem cellStyle_eq (t : TableState) : t.cellStyle = columnStyle t.alignments[t.cell]? := by
  unfold TableState.cellStyle columnStyle
  rfl

/-- **Cells** are written as they are spelled out, and are counted. -/
theorem writtenAs_cells (style : PageStyle) {cells : List (List Markdown.Tree)}
    (h : ∀ content ∈ cells, AreTableFree content) (alignments : List Markdown.Alignment)
    (inHead : Bool) (column : Nat) :
    WrittenAs style ⟨alignments, inHead, column⟩
      (Markdown.Tree.eventsOfList (cells.map Markdown.Table.cell))
      ⟨alignments, inHead, column + cells.length⟩
      (Markdown.Tree.eventsOfList (spelledCells (cellName inHead) alignments column cells)) := by
  induction cells generalizing column with
  | nil => exact fun w => rfl
  | cons content cells ih =>
    obtain ⟨hcontent, hcells⟩ := List.forall_mem_cons.1 h
    -- the state between the tags of the first cell, which only its end counts
    let t : TableState := ⟨alignments, inHead, column⟩
    have hopen : WrittenAs style t [.start .tableCell] t
        [.html (openCell (cellName inHead) alignments[column]?)] :=
      writtenAs_tag fun w => by
        rw [openCell, ← cellStyle_eq t]
        rfl
    have hclose : WrittenAs style t [.finish .tableCell] ⟨alignments, inHead, column + 1⟩
        [.html (closeCell (cellName inHead))] := writtenAs_tag fun w => rfl
    have hrest := ih hcells (column + 1)
    rw [Nat.add_right_comm, Nat.add_assoc] at hrest
    have hinner := writtenAs_of_not_turns style hcontent t
    have hall := hopen.append (hinner.append (hclose.append hrest))
    rw [spelledCells_cons]
    simpa [Markdown.Table.cell, Markdown.Tree.events, Markdown.Tree.eventsOfList, rawLeaf,
      Markdown.Tree.eventsOfList_append, Tag.toEnd] using hall

/-- **A row** behind the head is written as it is spelled out, whatever columns were counted. -/
theorem writtenAs_row (style : PageStyle) {cells : List (List Markdown.Tree)}
    (h : ∀ content ∈ cells, AreTableFree content) (alignments : List Markdown.Alignment)
    (column : Nat) :
    WrittenAs style ⟨alignments, false, column⟩ (Markdown.Table.row cells).events
      ⟨alignments, false, cells.length⟩
      (Markdown.Tree.eventsOfList (spelledRow alignments cells)) := by
  have hopen : WrittenAs style ⟨alignments, false, column⟩ [.start .tableRow]
      ⟨alignments, false, 0⟩ [.html "<tr>".toList] := writtenAs_tag fun w => rfl
  have hcells := writtenAs_cells style h alignments false 0
  have hclose : WrittenAs style ⟨alignments, false, 0 + cells.length⟩ [.finish .tableRow]
      ⟨alignments, false, cells.length⟩ [.html "</tr>".toList] :=
    writtenAs_tag fun w => by rw [Nat.zero_add]; rfl
  have hall := hopen.append (hcells.append hclose)
  simpa [Markdown.Table.row, spelledRow, Markdown.Tree.events, Markdown.Tree.eventsOfList, rawLeaf,
    Markdown.Tree.eventsOfList_append, Tag.toEnd, cellName] using hall

/-- All rows behind the head. -/
theorem exists_writtenAs_rows (style : PageStyle) {rows : List (List (List Markdown.Tree))}
    (h : ∀ cells ∈ rows, ∀ content ∈ cells, AreTableFree content)
    (alignments : List Markdown.Alignment) (column : Nat) :
    ∃ column', WrittenAs style ⟨alignments, false, column⟩
      (Markdown.Tree.eventsOfList (rows.map Markdown.Table.row)) ⟨alignments, false, column'⟩
      (Markdown.Tree.eventsOfList (rows.flatMap (spelledRow alignments))) := by
  induction rows generalizing column with
  | nil => exact ⟨column, fun w => rfl⟩
  | cons cells rows ih =>
    obtain ⟨hcells, hrows⟩ := List.forall_mem_cons.1 h
    obtain ⟨column', hrest⟩ := ih hrows cells.length
    refine ⟨column', ?_⟩
    rw [List.flatMap_cons, Markdown.Tree.eventsOfList_append]
    exact (writtenAs_row style hcells alignments column).append hrest

/-- **A table** is written as it is spelled out, whatever table came before. -/
theorem exists_writtenAs_table (style : PageStyle) {table : Markdown.Table}
    (h : ∀ content ∈ table.contents, AreTableFree content) (t : TableState) :
    ∃ t', WrittenAs style t table.tree.events t'
      (Markdown.Tree.eventsOfList (spelledTable table)) := by
  obtain ⟨hhead, hrows⟩ := Markdown.Table.forall_mem_contents.1 h
  -- nothing of `t` is left behind the start of the table
  have hopen : WrittenAs style t [.start (.table table.alignments)] ⟨table.alignments, false, 0⟩
      [.html "<table>".toList] := writtenAs_tag fun w => rfl
  have hopenHead : WrittenAs style ⟨table.alignments, false, 0⟩ [.start .tableHead]
      ⟨table.alignments, true, 0⟩ [.html "<thead><tr>".toList] := writtenAs_tag fun w => rfl
  have hcells := writtenAs_cells style hhead table.alignments true 0
  have hcloseHead : WrittenAs style ⟨table.alignments, true, 0 + table.head.length⟩
      [.finish .tableHead] ⟨table.alignments, false, 0 + table.head.length⟩
      [.html "</tr></thead><tbody>".toList] := writtenAs_tag fun w => rfl
  obtain ⟨column, hbody⟩ := exists_writtenAs_rows style hrows table.alignments
    (0 + table.head.length)
  have hclose : WrittenAs style ⟨table.alignments, false, column⟩ [.finish .table]
      ⟨table.alignments, false, column⟩ [.html "</tbody></table>\n".toList] :=
    writtenAs_tag fun w => rfl
  have hall := hopen.append (hopenHead.append (hcells.append (hcloseHead.append
    (hbody.append hclose))))
  refine ⟨⟨table.alignments, false, column⟩, ?_⟩
  rw [events_spelledTable]
  simpa [Markdown.Table.tree, Markdown.Tree.events, Markdown.Tree.eventsOfList, Tag.toEnd,
    cellName] using hall

/-- Parts that are each written as they are spelled out. -/
theorem exists_writtenAs_trees {trees : List Markdown.Tree}
    (h : ∀ tree ∈ trees, ∀ t, ∃ t', WrittenAs style t tree.events t'
      (Markdown.Tree.eventsOfList (spelledTree tree))) (t : TableState) :
    ∃ t', WrittenAs style t (Markdown.Tree.eventsOfList trees) t'
      (Markdown.Tree.eventsOfList (spelledTrees trees)) := by
  induction trees generalizing t with
  | nil => exact ⟨t, fun w => rfl⟩
  | cons tree trees ih =>
    obtain ⟨htree, htrees⟩ := List.forall_mem_cons.1 h
    obtain ⟨t₁, hfirst⟩ := htree t
    obtain ⟨t₂, hrest⟩ := ih htrees t₁
    refine ⟨t₂, ?_⟩
    rw [spelledTrees, Markdown.Tree.eventsOfList_append]
    exact hfirst.append hrest

/-- **A part of a document** is written as it is with its tables spelled out. -/
theorem exists_writtenAs_tree (style : PageStyle) {tree : Markdown.Tree}
    (h : HasWholeTables tree) (t : TableState) :
    ∃ t', WrittenAs style t tree.events t' (Markdown.Tree.eventsOfList (spelledTree tree)) := by
  induction h generalizing t with
  | @leaf event hedge =>
    have hturns : turnsToTable event = false := by
      cases event with
      | start tag | finish tag => cases hedge
      | _ => rfl
    exact ⟨t, writtenAs_of_not_turns style (List.forall_mem_singleton.2 hturns) t⟩
  | @node tag children htable hpart _ ih =>
    have hturns : turnsToTable (.start tag) = false ∧
        turnsToTable (.finish tag.toEnd) = false := by
      cases tag <;> simp_all [turnsToTable, Tag.isTable, Tag.isTablePart, Tag.toEnd]
    obtain ⟨t', hchildren⟩ := exists_writtenAs_trees ih t
    have hopen := writtenAs_of_not_turns style
      (List.forall_mem_singleton.2 hturns.1) t
    have hclose := writtenAs_of_not_turns style
      (List.forall_mem_singleton.2 hturns.2) t'
    refine ⟨t', ?_⟩
    rw [spelledTree_node htable]
    simpa [Markdown.Tree.events, Markdown.Tree.eventsOfList] using
      hopen.append (hchildren.append hclose)
  | @table table hcontents =>
    rw [spelledTree_table]
    exact exists_writtenAs_table style hcontents t

end Writer

/-- **A document with its tables spelled out** has the same page. -/
theorem renderEvents_spelledTrees (style : PageStyle) {trees : List Markdown.Tree}
    (h : ∀ tree ∈ trees, HasWholeTables tree) :
    renderEvents style (Markdown.Tree.eventsOfList (spelledTrees trees)) =
      renderEvents style (Markdown.Tree.eventsOfList trees) := by
  obtain ⟨t', hwritten⟩ := Writer.exists_writtenAs_trees
    (fun tree htree => Writer.exists_writtenAs_tree style (h tree htree)) {}
  have hrun : Writer.run style {} (Markdown.Tree.eventsOfList trees) =
      (Writer.run style {} (Markdown.Tree.eventsOfList (spelledTrees trees))).map
        (·.withTable t') := hwritten {}
  rw [renderEvents, renderEvents, hrun]
  cases Writer.run style {} (Markdown.Tree.eventsOfList (spelledTrees trees)) <;> rfl

/-! ### Markup -/

/-- The **markup of cells** with the given contents, the first of which stands in the given
column. -/
def cellsMarkup (name : Text) (alignments : List Markdown.Alignment) (column : Nat)
    (contents : List Text) : Text :=
  (contents.zipIdx column).flatMap fun (content, k) =>
    openCell name alignments[k]? ++ content ++ closeCell name

/-- The markup of a row behind the head. -/
def rowMarkup (alignments : List Markdown.Alignment) (contents : List Text) : Text :=
  "<tr>".toList ++ cellsMarkup "td".toList alignments 0 contents ++ "</tr>".toList

/-- The **markup of a table** whose cells have the given contents. -/
def tableMarkup (alignments : List Markdown.Alignment) (head : List Text)
    (rows : List (List Text)) : Text :=
  "<table>".toList ++ ("<thead><tr>".toList ++ (cellsMarkup "th".toList alignments 0 head ++
    ("</tr></thead><tbody>".toList ++ (rows.flatMap (rowMarkup alignments) ++
      "</tbody></table>\n".toList))))

namespace Writer

/-- Whether `events` **append** `markup` to what is written behind others. -/
structure RunAppends (style : PageStyle) (before events : List Event) (markup : Text)
    (w w' : Writer) : Prop where
  run : run style w events = .ok w'
  history : Writer.run style {} (before ++ events) = .ok w'
  output : w'.output = w.output ++ markup

/-- A run that appends a markup. -/
theorem RunAppends.of_run {markup : Text} (hrun : Writer.run style {} before = .ok w)
    (h : Writer.run style w events = .ok w') (houtput : w'.output = w.output ++ markup) :
    RunAppends style before events markup w w' where
  run := h
  history := by
    rw [run_append, hrun]
    exact h
  output := houtput

/-- Streams after each other append after each other. -/
theorem RunAppends.trans {more : List Event} {u v : Writer} {markup moreMarkup : Text}
    (h : RunAppends style before events markup u v)
    (hmore : RunAppends style (before ++ events) more moreMarkup v w) :
    RunAppends style before (events ++ more) (markup ++ moreMarkup) u w where
  run := by
    rw [run_append, h.run]
    exact hmore.run
  history := by
    rw [← List.append_assoc]
    exact hmore.history
  output := by rw [hmore.output, h.output, List.append_assoc]

/-- Markup appends itself. -/
theorem runAppends_raw (hrun : Writer.run style {} before = .ok w) (s : Text) :
    RunAppends style before [.html s] s w (w.push s) := .of_run hrun rfl rfl

/-- Whether `markup` is what is written somewhere for the **content of a cell**. -/
def IsCellContent (style : PageStyle) (content : List Markdown.Tree) (markup : Text) : Prop :=
  ∃ before w w', RunAppends style before (Markdown.Tree.eventsOfList content) markup w w'

/-- The content of a cell, within a line, appends its markup. -/
theorem exists_runAppends_content {content : List Markdown.Tree}
    (h : ∀ tree ∈ content, StandsInLine inImage tree)
    (hrun : Writer.run style {} before = .ok w) : ∃ markup w',
      RunAppends style before (Markdown.Tree.eventsOfList content) markup w w' := by
  obtain ⟨markup, w', hwrites⟩ := writesLine_list (R := imageReading style)
    (fun tree htree before w => writes_line (h tree htree)
      (fun event _ => isQuiet_imageReading) fun _ _ _ => trivial) hrun
  exact ⟨markup, w', .of_run hrun hwrites.run hwrites.output⟩

/-- **Cells** append their contents, each between its tags. -/
theorem exists_runAppends_cells {cells : List (List Markdown.Tree)}
    (h : ∀ content ∈ cells, ∀ tree ∈ content, StandsInLine inImage tree)
    (name : Text) (alignments : List Markdown.Alignment) (column : Nat)
    (hrun : Writer.run style {} before = .ok w) : ∃ contents w',
      List.Forall₂ (IsCellContent style) cells contents ∧
      RunAppends style before
        (Markdown.Tree.eventsOfList (spelledCells name alignments column cells))
        (cellsMarkup name alignments column contents) w w' := by
  induction cells generalizing before w column with
  | nil => exact ⟨[], w, .nil, .of_run hrun rfl (List.append_nil _).symm⟩
  | cons content cells ih =>
    obtain ⟨hcontent, hcells⟩ := List.forall_mem_cons.1 h
    have hopen := runAppends_raw hrun (openCell name alignments[column]?)
    obtain ⟨markup, w₁, hinner⟩ := exists_runAppends_content hcontent hopen.history
    have hclose := runAppends_raw hinner.history (closeCell name)
    obtain ⟨contents, w', hcontents, hrest⟩ := ih hcells (column + 1) hclose.history
    refine ⟨markup :: contents, w', .cons ⟨_, _, _, hinner⟩ hcontents, ?_⟩
    have hall := hopen.trans (hinner.trans (hclose.trans hrest))
    rw [spelledCells_cons]
    simpa [cellsMarkup, List.zipIdx_cons, rawLeaf, Markdown.Tree.events,
      Markdown.Tree.eventsOfList, Markdown.Tree.eventsOfList_append] using hall

/-- **Rows** behind the head append their cells, each between its tags. -/
theorem exists_runAppends_rows {rows : List (List (List Markdown.Tree))}
    (h : ∀ cells ∈ rows, ∀ content ∈ cells, ∀ tree ∈ content, StandsInLine inImage tree)
    (alignments : List Markdown.Alignment) (hrun : Writer.run style {} before = .ok w) :
    ∃ contents w', List.Forall₂ (List.Forall₂ (IsCellContent style)) rows contents ∧
      RunAppends style before (Markdown.Tree.eventsOfList (rows.flatMap (spelledRow alignments)))
        (contents.flatMap (rowMarkup alignments)) w w' := by
  induction rows generalizing before w with
  | nil => exact ⟨[], w, .nil, .of_run hrun rfl (List.append_nil _).symm⟩
  | cons cells rows ih =>
    obtain ⟨hcells, hrows⟩ := List.forall_mem_cons.1 h
    have hopen := runAppends_raw hrun "<tr>".toList
    obtain ⟨row, w₁, hrow, hinner⟩ :=
      exists_runAppends_cells hcells "td".toList alignments 0 hopen.history
    have hclose := runAppends_raw hinner.history "</tr>".toList
    obtain ⟨contents, w', hcontents, hrest⟩ := ih hrows hclose.history
    refine ⟨row :: contents, w', .cons hrow hcontents, ?_⟩
    have hall := hopen.trans (hinner.trans (hclose.trans hrest))
    simpa [rowMarkup, spelledRow, rawLeaf, Markdown.Tree.events, Markdown.Tree.eventsOfList,
      Markdown.Tree.eventsOfList_append] using hall

/-- **A table spelled out** appends the markup of the table. -/
theorem exists_runAppends_table {table : Markdown.Table}
    (h : ∀ content ∈ table.contents, ∀ tree ∈ content, StandsInLine inImage tree)
    (hrun : Writer.run style {} before = .ok w) : ∃ head rows w',
      List.Forall₂ (IsCellContent style) table.head head ∧
      List.Forall₂ (List.Forall₂ (IsCellContent style)) table.rows rows ∧
      RunAppends style before (Markdown.Tree.eventsOfList (spelledTable table))
        (tableMarkup table.alignments head rows) w w' := by
  obtain ⟨hhead, hbodyLines⟩ := Markdown.Table.forall_mem_contents.1 h
  have hopen := runAppends_raw hrun "<table>".toList
  have hopenHead := runAppends_raw hopen.history "<thead><tr>".toList
  obtain ⟨head, w₁, hcells, hinner⟩ :=
    exists_runAppends_cells hhead "th".toList table.alignments 0 hopenHead.history
  have hcloseHead := runAppends_raw hinner.history "</tr></thead><tbody>".toList
  obtain ⟨rows, w₂, hrows, hbody⟩ :=
    exists_runAppends_rows hbodyLines table.alignments hcloseHead.history
  have hclose := runAppends_raw hbody.history "</tbody></table>\n".toList
  refine ⟨head, rows, w₂.push "</tbody></table>\n".toList, hcells, hrows, ?_⟩
  rw [events_spelledTable]
  exact hopen.trans (hopenHead.trans (hinner.trans (hcloseHead.trans (hbody.trans hclose))))

/-- **The markup of a table** stands behind what was written before it, wherever it is. -/
theorem exists_run_tableMarkup {table : Markdown.Table}
    (hfree : ∀ content ∈ table.contents, AreTableFree content)
    (hlines : ∀ content ∈ table.contents, ∀ tree ∈ content, StandsInLine inImage tree)
    (hrun : Writer.run style {} before = .ok w) : ∃ head rows w',
      List.Forall₂ (IsCellContent style) table.head head ∧
      List.Forall₂ (List.Forall₂ (IsCellContent style)) table.rows rows ∧
      RunAppends style before table.tree.events (tableMarkup table.alignments head rows) w w' := by
  obtain ⟨head, rows, w₁, hhead, hrows, happends⟩ := exists_runAppends_table hlines hrun
  obtain ⟨t', hwritten⟩ := exists_writtenAs_table style hfree w.table
  have htable := hwritten w
  rw [happends.run] at htable
  exact ⟨head, rows, w₁.withTable t', hhead, hrows, .of_run hrun htable happends.output⟩

end Writer

/-- **The tables of a page**, for a well-nested stream in which headings and images hold lines and
tables are whole, any number of them wherever they stand. The page is that of the document in which
each table is spelled out: the tags of the cell in column `k` of a row are those of the head or of
the body, with the style of the alignment at `k` if there is one. What is written for a single table
is just its markup, with these tags around the contents of its cells, whatever came before. -/
theorem tables_renderEvents (style : PageStyle) {trees : List Markdown.Tree}
    (htrees : ∀ tree ∈ trees, StandsInText inImage tree)
    (htables : ∀ tree ∈ trees, HasWholeTables tree) :
    let events := Markdown.Tree.eventsOfList trees
    ∃ page, renderEvents style events = .ok page ∧
      renderEvents style (Markdown.Tree.eventsOfList (spelledTrees trees)) = .ok page ∧
      ∀ before (table : Markdown.Table) after, events = before ++ (table.tree.events ++ after) →
        (∀ content ∈ table.contents, AreTableFree content) →
        (∀ content ∈ table.contents, ∀ tree ∈ content, StandsInLine inImage tree) →
        ∃ w w' head rows, Writer.run style {} before = .ok w ∧
          Writer.run style {} (before ++ table.tree.events) = .ok w' ∧
          w'.output = w.output ++ tableMarkup table.alignments head rows ∧
          List.Forall₂ (Writer.IsCellContent style) table.head head ∧
          List.Forall₂ (List.Forall₂ (Writer.IsCellContent style)) table.rows rows := by
  intro events
  obtain ⟨w, hrun⟩ := exists_run_of_standsInText style htrees
  have hpage : renderEvents style events = .ok (w.page style) := by rw [renderEvents, hrun]; rfl
  refine ⟨w.page style, hpage, (renderEvents_spelledTrees style htables).trans hpage, ?_⟩
  intro before table after hsplit hfree hlines
  have hwhole : Writer.run style {} events = .ok w := hrun
  rw [hsplit] at hwhole
  obtain ⟨w₁, hbefore, -⟩ := Writer.exists_run_of_append hwhole
  obtain ⟨head, rows, w₂, hhead, hrows, happends⟩ :=
    Writer.exists_run_tableMarkup hfree hlines hbefore
  exact ⟨w₁, w₂, head, rows, hbefore, happends.history, happends.output, hhead, hrows⟩

/-- **Two tables**: a row with more cells than there are alignments, an empty row, and a table in a
quote behind them that starts anew. -/
theorem tables_oneBehindTheOther :
    let first : Markdown.Table := ⟨[.left], [[.text ['A']]], [[[.text ['1']], []], []]⟩
    let second : Markdown.Table :=
      ⟨[.unset, .right], [[.node .emphasis [.text ['B']]], [.text ['C']]], []⟩
    let trees := [first.tree, .node .blockQuote [second.tree]]
    let html := "<table><thead><tr><th style=\"text-align: left\">A</th></tr></thead>".toList ++
      "<tbody><tr><td style=\"text-align: left\">1</td><td></td></tr><tr></tr>".toList ++
      "</tbody></table>\n<blockquote>\n<table><thead><tr><th><em>B</em></th>".toList ++
      "<th style=\"text-align: right\">C</th></tr></thead><tbody></tbody></table>\n".toList ++
      "</blockquote>\n".toList
    let events := Markdown.Tree.eventsOfList trees
    (∀ tree ∈ trees, StandsInText (fun _ => True) tree) ∧ (∀ tree ∈ trees, HasWholeTables tree) ∧
      ∃ page, renderEvents {} events = .ok page ∧
        renderEvents {} (Markdown.Tree.eventsOfList (spelledTrees trees)) = .ok page ∧
        page.html = html ∧
        ∃ (w w' : Writer) (head : List Text) (rows : List (List Text)),
          Writer.run {} {} (first.tree.events ++ [.start .blockQuote]) = .ok w ∧
          w'.output = w.output ++ tableMarkup [.unset, .right] head rows ∧
          List.Forall₂ (Writer.IsCellContent {}) second.head head ∧
          List.Forall₂ (List.Forall₂ (Writer.IsCellContent {})) second.rows rows := by
  intro first second trees html events
  have htext : ∀ s : Text, StandsInLine (fun _ => True) (.text s) := fun s => .leaf rfl
  have hfirst : ∀ content ∈ first.contents, ∀ tree ∈ content,
      StandsInLine (fun _ => True) tree := by
    simp [first, Markdown.Table.contents, htext]
  have hsecond : ∀ content ∈ second.contents, ∀ tree ∈ content,
      StandsInLine (fun _ => True) tree := by
    have hemphasis : StandsInLine (fun _ => True) (.node .emphasis [.text ['B']]) :=
      .node rfl (List.forall_mem_singleton.2 (htext _))
    simp [second, Markdown.Table.contents, htext, hemphasis]
  have htrees : ∀ tree ∈ trees, StandsInText (fun _ => True) tree :=
    List.forall_mem_cons.2 ⟨standsInText_table hfirst, List.forall_mem_singleton.2
      (.node rfl (List.forall_mem_singleton.2 (standsInText_table hsecond)))⟩
  have hfreeFirst : ∀ content ∈ first.contents, ∀ event ∈ Markdown.Tree.eventsOfList content,
      Writer.turnsToTable event = false := by decide
  have hfreeSecond : ∀ content ∈ second.contents, ∀ event ∈ Markdown.Tree.eventsOfList content,
      Writer.turnsToTable event = false := by decide
  have htables : ∀ tree ∈ trees, HasWholeTables tree :=
    List.forall_mem_cons.2 ⟨.table hfreeFirst, List.forall_mem_singleton.2
      (.node rfl rfl (List.forall_mem_singleton.2 (.table hfreeSecond)))⟩
  obtain ⟨page, hpage, hspelled, hsingle⟩ := tables_renderEvents {} htrees htables
  obtain ⟨w, w', head, rows, hbefore, -, houtput, hhead, hrows⟩ := hsingle
    (first.tree.events ++ [.start .blockQuote]) second [.finish .blockQuote] rfl hfreeSecond hsecond
  have hhtml : (renderEvents {} events).map (·.html) = .ok html := by decide +kernel
  rw [hpage] at hhtml
  exact ⟨htrees, htables, page, hpage, hspelled, Except.ok.inj hhtml, w, w', head, rows, hbefore,
    houtput, hhead, hrows⟩

end Lectern.Page
