import Lectern.Proofs.FileTree.Listing
import Lectern.Proofs.FileTree.Walk
import Lectern.Proofs.Glob.Escape

/-!
# Searching with Globs

What a search finds in a proper tree. The escaped steps of a directory lead where the path of the
directory leads, and nowhere else; two stars lead to the directories below; and an open name leads
to the names that match. The path of what is found begins with the steps of the glob, but for a dot
at their start.

## Main results

* `walk_escape`: the escaped steps of a path lead where the path leads.
* `walk_below`: two stars and an open name.
* `isBare_of_mem_walk`: no path that is found begins with a dot.
-/

namespace Lectern.Glob

variable {tree : FileTree} {spot : Spot} {path : Path} {name : Bytes} {s t : Text}

/-! ### Paths -/

/-- Whether a path is written **without a dot** at its start, and is not empty. -/
structure IsBare (path : Path) : Prop where
  ne_nil : path ≠ []
  head : (Path.components path).head? ≠ some .here

/-- A bare path is not that of the working directory. -/
theorem IsBare.isHere (h : IsBare path) : isHere path = false := by
  refine Bool.eq_false_iff.2 fun hhere => h.head ?_
  rw [of_decide_eq_true hhere]
  rfl

/-- A segment without slashes is one segment. -/
theorem segments_of_not_mem {segment : Bytes} (h : Path.slash ∉ segment) :
    Path.segments segment = [segment] := by
  rw [Path.segments_eq_splitOn, List.splitOn_eq_singleton h]

/-- The components of the path of something in a directory. -/
theorem IsBare.components_pathTo (h : IsBare path) {segment : Bytes}
    (hsegment : Path.slash ∉ segment) :
    Path.components (pathTo path segment) =
      Path.components path ++ [segment].filterMap Path.Component.ofSegment? := by
  have hrelative : Path.isAbsolute segment = false := by
    refine Bool.eq_false_iff.2 fun habsolute => ?_
    obtain ⟨rest, rfl⟩ := Path.isAbsolute_iff.1 habsolute
    simp at hsegment
  rw [Glob.pathTo, h.isHere, if_neg (by simp), Path.components_join h.ne_nil hrelative,
    segments_of_not_mem hsegment]

/-- A path that is not empty has components. -/
theorem components_ne_nil (h : path ≠ []) : Path.components path ≠ [] := by
  obtain ⟨first, rest, hfirst⟩ := List.exists_cons_of_ne_nil (FileTree.segments_ne_nil path)
  simp only [Path.components, hfirst, h, if_false]
  unfold Path.Component.ofSegment?
  split
  · simp
  · split
    · simp
    · split <;> simp

/-- The path of something in a directory is bare if that of the directory is. -/
theorem IsBare.pathTo (h : IsBare path) {segment : Bytes} (hsegment : Path.slash ∉ segment) :
    IsBare (pathTo path segment) := by
  have hcomponents := h.components_pathTo hsegment
  constructor
  · intro hempty
    rw [hempty] at hcomponents
    exact components_ne_nil h.ne_nil (List.append_eq_nil_iff.1 hcomponents.symm).1
  · obtain ⟨first, rest, hfirst⟩ := List.exists_cons_of_ne_nil (components_ne_nil h.ne_nil)
    have hhead := h.head
    rw [hfirst] at hhead
    rw [hcomponents, hfirst]
    exact hhead

/-- A segment that is neither empty nor a dot is a bare path. -/
theorem isBare_segment {segment : Bytes} (hslash : Path.slash ∉ segment) (hempty : segment ≠ [])
    (hdot : segment ≠ [Path.dot]) : IsBare segment ∧
      Path.components segment = [segment].filterMap Path.Component.ofSegment? := by
  have hcomponents : Path.components segment =
      [segment].filterMap Path.Component.ofSegment? := by
    simp only [Path.components, segments_of_not_mem hslash, hempty, hdot, if_false,
      List.filterMap_nil, List.append_nil]
    cases hsegment : Path.Component.ofSegment? segment <;> simp [hsegment]
  refine ⟨⟨hempty, ?_⟩, hcomponents⟩
  rw [hcomponents]
  by_cases hdots : segment = [Path.dot, Path.dot] <;>
    simp [Path.Component.ofSegment?, hempty, hdot, hdots]

/-- The components at the end of names. -/
theorem IsBare.components_descend (h : IsBare spot.path) {names : List Bytes}
    (hnames : ∀ name ∈ names, Path.IsName name) :
    Path.components (spot.descend names).path =
      Path.components spot.path ++ names.map .name := by
  induction names generalizing spot with
  | nil => exact (List.append_nil _).symm
  | cons name names ih =>
    obtain ⟨hname, hrest⟩ := List.forall_mem_cons.1 hnames
    have hbare : IsBare (spot.enter name).path := h.pathTo hname.slash_not_mem
    rw [Spot.descend, List.foldl_cons, ← Spot.descend, ih hbare hrest, Spot.enter,
      h.components_pathTo hname.slash_not_mem]
    simp [hname.ofSegment?]

/-- The location at the end of names. -/
theorem location_descend (spot : Spot) (names : List Bytes) :
    (spot.descend names).location = spot.location ++ names := by
  induction names generalizing spot with
  | nil => exact (List.append_nil _).symm
  | cons name names ih =>
    rw [Spot.descend, List.foldl_cons, ← Spot.descend, ih, Spot.enter, List.append_assoc]
    rfl

/-! ### Escaped steps -/

/-- The step of an escaped piece. -/
def escapedStep (piece : Text) : Step := .name (tokens (escape piece))

/-- **An escaped step** leads where the segment leads. -/
theorem reach_escape (htree : tree.IsProper) (spot : Spot) {location : Location}
    (hstep : tree.step spot.location (Text.encode s) = .ok location)
    (hslash : '/' ∉ s) (hhere : isHere spot.path = false ∨ s ≠ []) :
    spot.reach tree (escapedStep s) = [⟨pathTo spot.path (Text.encode s), location⟩] := by
  rw [escapedStep, Spot.reach, literal?_escape]
  cases hspecial : s.any isSpecial with
  | false =>
    have hguard : (isHere spot.path && decide (Text.encode s = [])) = false := by
      rcases hhere with hhere | hne
      · rw [hhere, Bool.false_and]
      · have hbytes : Text.encode s ≠ [] := fun heq => hne (Text.encode_inj (heq.trans rfl))
        simp [hbytes]
    simp [Spot.follow?, hguard, hstep]
  | true =>
    -- a text with special characters is a name, so it is one of those in the directory
    have hname : Path.IsName (Text.encode s) := by
      have hne : ∀ other : Text, other.any isSpecial = false → Text.encode s ≠ Text.encode other :=
        fun other hother heq => by simp [Text.encode_inj heq, hother] at hspecial
      exact ⟨hne [] rfl, hne ['.'] (by decide), hne ['.', '.'] (by decide),
        Text.slash_not_mem_encode hslash⟩
    obtain ⟨hdirectory, -, hentry, rfl⟩ := (FileTree.step_eq_ok_iff hname).1 hstep
    have hfilter : (tree.names spot.location).filter (isNameMatch (tokens (escape s))) =
        [Text.encode s] := by
      have hone : ∀ name, isNameMatch (tokens (escape s)) name = (name == Text.encode s) := by
        intro name
        rw [Bool.eq_iff_iff, isNameMatch_escape, beq_iff_eq]
      rw [List.filter_congr fun name _ => hone name, List.filter_beq,
        List.count_eq_one_of_mem (htree.nodup_names _) (FileTree.mem_names.2 hentry)]
      rfl
    simp [hdirectory, hfilter, Spot.enter]

/-- **The escaped steps of a path** lead where the path leads. -/
theorem walk_escape (htree : tree.IsProper) {pieces : List Text} {location : Location}
    (hpieces : ∀ piece ∈ pieces, '/' ∉ piece)
    (hwalk : tree.walk spot.location (pieces.map Text.encode) = .ok location)
    (hbare : IsBare spot.path) :
    ∃ path, walk tree (pieces.map escapedStep) spot = [⟨path, location⟩] := by
  induction pieces generalizing spot with
  | nil =>
    obtain rfl := Except.ok.inj hwalk
    exact ⟨spot.path, rfl⟩
  | cons piece pieces ih =>
    obtain ⟨hpiece, hrest⟩ := List.forall_mem_cons.1 hpieces
    simp only [List.map_cons, FileTree.walk] at hwalk
    split at hwalk
    · next next hstep =>
      have hspot := hbare.pathTo (Text.slash_not_mem_encode hpiece)
      obtain ⟨path, hend⟩ :=
        @ih ⟨Glob.pathTo spot.path (Text.encode piece), next⟩ hrest hwalk hspot
      refine ⟨path, ?_⟩
      rw [List.map_cons, walk, reach_escape htree spot hstep hpiece (.inl hbare.isHere),
        List.flatMap_singleton, hend]
    · cases hwalk

/-- The path to which an escaped step leads, wherever that is. -/
theorem path_of_mem_reach {next : Spot} (hnext : next ∈ spot.reach tree (escapedStep s)) :
    next.path = pathTo spot.path (Text.encode s) ∧
      (isHere spot.path = true → Text.encode s ≠ []) := by
  rw [escapedStep, Spot.reach, literal?_escape] at hnext
  cases hspecial : s.any isSpecial with
  | false =>
    simp only [hspecial, Bool.false_eq_true, if_false, Option.mem_toList] at hnext
    unfold Spot.follow? at hnext
    split at hnext
    · cases hnext
    · next hguard =>
      split at hnext
      · obtain rfl := (Option.some.inj hnext).symm
        exact ⟨rfl, fun hhere hempty => hguard (by simp [hhere, hempty])⟩
      · cases hnext
  | true =>
    simp only [hspecial, if_true] at hnext
    split at hnext
    · obtain ⟨name, hname, rfl⟩ := List.mem_map.1 hnext
      refine ⟨by rw [← isNameMatch_escape.1 (List.mem_filter.1 hname).2]; rfl, fun _ hempty => ?_⟩
      have hs : s = [] := Text.encode_inj (hempty.trans rfl)
      simp [hs] at hspecial
    · cases hnext

/-- **The path** to which escaped steps lead is written with them. -/
theorem components_of_mem_walk {pieces : List Text} (hpieces : ∀ piece ∈ pieces, '/' ∉ piece)
    (hbare : IsBare spot.path) {last : Spot}
    (hlast : last ∈ walk tree (pieces.map escapedStep) spot) :
    IsBare last.path ∧ Path.components last.path = Path.components spot.path ++
      (pieces.map Text.encode).filterMap Path.Component.ofSegment? := by
  induction pieces generalizing spot with
  | nil =>
    obtain rfl := List.mem_singleton.1 hlast
    exact ⟨hbare, by simp⟩
  | cons piece pieces ih =>
    obtain ⟨hpiece, hrest⟩ := List.forall_mem_cons.1 hpieces
    have hslash := Text.slash_not_mem_encode hpiece
    obtain ⟨next, hnext, hlast⟩ := List.mem_flatMap.1 hlast
    have hpath := (path_of_mem_reach hnext).1
    obtain ⟨hend, hcomponents⟩ := ih hrest (hpath ▸ hbare.pathTo hslash) hlast
    refine ⟨hend, ?_⟩
    rw [hcomponents, hpath, hbare.components_pathTo hslash, List.append_assoc,
      ← List.filterMap_append]
    rfl

/-! ### Open steps -/

/-- Some end of a text has a property. -/
theorem someEnd_eq_true_iff {property : Text → Bool} :
    someEnd property t = true ↔ ∃ front back, t = front ++ back ∧ property back = true := by
  induction t with
  | nil =>
    constructor
    · exact fun h => ⟨[], [], rfl, h⟩
    · rintro ⟨front, back, hsplit, h⟩
      obtain ⟨-, rfl⟩ := List.append_eq_nil_iff.1 hsplit.symm
      exact h
  | cons c t ih =>
    rw [someEnd, Bool.or_eq_true, ih]
    constructor
    · rintro (h | ⟨front, back, rfl, h⟩)
      · exact ⟨[], c :: t, rfl, h⟩
      · exact ⟨c :: front, back, rfl, h⟩
    · rintro ⟨front, back, hsplit, h⟩
      cases front with
      | nil => exact .inl (hsplit ▸ h)
      | cons d front => exact .inr ⟨front, back, (List.cons.inj hsplit).2, h⟩

/-- **A name with an open start** is any text with the given end. -/
theorem isNameMatch_gap_escape : isNameMatch (.gap :: tokens (escape s)) name = true ↔
    ∃ front, name = Text.encode (front ++ s) := by
  have hmatch : ∀ t, isMatch (.gap :: tokens (escape s)) t = true ↔ ∃ front, t = front ++ s := by
    intro t
    rw [isMatch, someEnd_eq_true_iff]
    constructor
    · rintro ⟨front, back, rfl, hback⟩
      exact ⟨front, by rw [isMatch_escape.1 hback]⟩
    · rintro ⟨front, rfl⟩
      exact ⟨front, s, rfl, isMatch_escape.2 rfl⟩
  constructor
  · intro h
    unfold isNameMatch at h
    cases hname : Text.decode? name with
    | none => simp [hname] at h
    | some t =>
      obtain ⟨front, rfl⟩ := (hmatch t).1 (by simpa [hname] using h)
      exact ⟨front, Text.decode?_eq_some_iff.1 hname⟩
  · rintro ⟨front, rfl⟩
    rw [isNameMatch, Text.decode?_eq_some_iff.2 rfl]
    exact (hmatch _).2 ⟨front, rfl⟩

/-- The ways from a directory to what has a **matching name**, in the directory or below it. -/
def waysBelow (tree : FileTree) (directory : Location) (pattern : List Token) : List Location :=
  (tree.directoriesBelow tree.depth directory).flatMap fun way =>
    ((tree.names (directory ++ way)).filter (isNameMatch pattern)).map fun name => way ++ [name]

variable {directory way : Location} {pattern : List Token}

/-- The ways to what has a matching name are those of entries. -/
theorem mem_waysBelow (htree : tree.IsProper)
    (hdirectory : tree.entry? directory = some .directory) :
    way ∈ waysBelow tree directory pattern ↔
      (∃ name, way.getLast? = some name ∧ isNameMatch pattern name = true) ∧
        (tree.entry? (directory ++ way)).isSome = true := by
  simp only [waysBelow, List.mem_flatMap, List.mem_map, List.mem_filter, FileTree.mem_names,
    htree.mem_directoriesBelow hdirectory]
  constructor
  · rintro ⟨front, -, name, ⟨hentry, hname⟩, rfl⟩
    exact ⟨⟨name, by simp, hname⟩, by rwa [← List.append_assoc]⟩
  · rintro ⟨⟨name, hlast, hname⟩, hentry⟩
    obtain ⟨front, rfl⟩ := List.getLast?_eq_some_iff.1 hlast
    rw [← List.append_assoc] at hentry
    have hfront := htree.entry?_of_append (List.cons_ne_nil name []) hentry
    refine ⟨front, ⟨?_, hfront⟩, name, ⟨hentry, hname⟩, rfl⟩
    have hlength := @FileTree.length_le_depth tree (directory ++ front) (by rw [hfront]; rfl)
    rw [List.length_append] at hlength
    omega

/-- No way is found twice. -/
theorem nodup_waysBelow (htree : tree.IsProper) (directory : Location) (pattern : List Token) :
    (waysBelow tree directory pattern).Nodup := by
  refine List.nodup_flatMap.2 ⟨fun front _ => ?_, ?_⟩
  · exact ((htree.nodup_names _).filter _).map fun _ _ h => by simpa using h
  · refine (htree.nodup_directoriesBelow _ _).imp fun {first second} hne => ?_
    intro way hfirst hsecond
    obtain ⟨_, -, rfl⟩ := List.mem_map.1 hfirst
    obtain ⟨_, -, heq⟩ := List.mem_map.1 hsecond
    exact hne (List.append_inj_left' heq rfl).symm

/-- **Two stars and an open name** lead to what has a matching name below the directory. -/
theorem walk_below (htree : tree.IsProper)
    (hdirectory : tree.entry? spot.location = some .directory) (hopen : literal? pattern = none) :
    walk tree [.everywhere, .name pattern] spot =
      (waysBelow tree spot.location pattern).map spot.descend := by
  have hlast : ∀ front ∈ tree.directoriesBelow tree.depth spot.location,
      walk tree [.name pattern] (spot.descend front) =
        (((tree.names (spot.location ++ front)).filter (isNameMatch pattern)).map
          fun name => front ++ [name]).map spot.descend := by
    intro front hfront
    have hentry := ((htree.mem_directoriesBelow hdirectory).1 hfront).2
    simp only [walk, Spot.reach, hopen, location_descend, hentry, if_true, List.map_map]
    rw [List.flatMap_singleton']
    refine List.map_congr_left fun name _ => ?_
    simp [Spot.descend]
  rw [walk, Spot.reach, if_pos hdirectory, List.flatMap_map, waysBelow, List.map_flatMap]
  exact List.flatMap_congr hlast

/-- What is found below a spot is at the end of a way of names. -/
theorem exists_of_mem_walk_below (htree : tree.IsProper) (hopen : literal? pattern = none)
    {last : Spot} (hlast : last ∈ walk tree [.everywhere, .name pattern] spot) :
    ∃ way, way ≠ [] ∧ (∀ name ∈ way, Path.IsName name) ∧ last = spot.descend way := by
  by_cases hdirectory : tree.entry? spot.location = some .directory
  · rw [walk_below htree hdirectory hopen] at hlast
    obtain ⟨way, hway, rfl⟩ := List.mem_map.1 hlast
    obtain ⟨⟨name, hname, -⟩, hentry⟩ := (mem_waysBelow htree hdirectory).1 hway
    exact ⟨way, fun hempty => by simp [hempty] at hname, fun name hname =>
      htree.isName_of_mem hentry (List.mem_append_right _ hname), rfl⟩
  · simp [walk, Spot.reach, hdirectory] at hlast

/-! ### Paths that begin with a dot -/

/-- Whether a path is **found with its dot taken away**: it is that of the working directory, or
bare. -/
def IsFound (path : Path) : Prop := isHere path = true ∨ IsBare path

/-- What is entered from a found path is bare. -/
theorem IsFound.enter (h : IsFound spot.path) (hname : Path.IsName name) :
    IsBare (spot.enter name).path := by
  rcases h with hhere | hbare
  · rw [Spot.enter, pathTo, if_pos hhere]
    exact (isBare_segment hname.slash_not_mem hname.ne_nil hname.ne_dot).1
  · exact hbare.pathTo hname.slash_not_mem

/-- What is at the end of a way from a found path is bare. -/
theorem IsFound.descend (h : IsFound spot.path) (hway : way ≠ [])
    (hnames : ∀ name ∈ way, Path.IsName name) : IsBare (spot.descend way).path := by
  induction way generalizing spot with
  | nil => exact absurd rfl hway
  | cons name way ih =>
    obtain ⟨hname, hrest⟩ := List.forall_mem_cons.1 hnames
    have hbare := h.enter hname
    by_cases hempty : way = []
    · rwa [hempty]
    · exact ih (.inr hbare) hempty hrest

/-- What a segment leads to from a found path is found. -/
theorem IsFound.pathTo (h : IsFound path) {segment : Bytes} (hslash : Path.slash ∉ segment)
    (hguard : isHere path = true → segment ≠ []) : IsFound (pathTo path segment) := by
  rcases h with hhere | hbare
  · rw [Glob.pathTo, if_pos hhere]
    by_cases hdot : segment = [Path.dot]
    · exact .inl (hdot ▸ rfl)
    · exact .inr (isBare_segment hslash (hguard hhere) hdot).1
  · exact .inr (hbare.pathTo hslash)

/-- Escaped steps lead to found paths. -/
theorem isFound_of_mem_walk {pieces : List Text} (hpieces : ∀ piece ∈ pieces, '/' ∉ piece)
    (h : IsFound spot.path) {last : Spot}
    (hlast : last ∈ walk tree (pieces.map escapedStep) spot) : IsFound last.path := by
  induction pieces generalizing spot with
  | nil =>
    obtain rfl := List.mem_singleton.1 hlast
    exact h
  | cons piece pieces ih =>
    obtain ⟨hpiece, hrest⟩ := List.forall_mem_cons.1 hpieces
    obtain ⟨next, hnext, hlast⟩ := List.mem_flatMap.1 hlast
    obtain ⟨hpath, hguard⟩ := path_of_mem_reach hnext
    exact ih hrest (hpath ▸ h.pathTo (Text.slash_not_mem_encode hpiece) hguard) hlast

/-- Steps are walked one after the other. -/
theorem walk_append (tree : FileTree) (first second : List Step) (spot : Spot) :
    walk tree (first ++ second) spot = (walk tree first spot).flatMap (walk tree second) := by
  induction first generalizing spot with
  | nil => exact (List.flatMap_singleton _ _).symm
  | cons step first ih =>
    rw [List.cons_append, walk, walk, List.flatMap_assoc]
    exact List.flatMap_congr fun next _ => ih next

/-- **No dot** is left at the start of what is found below a directory. -/
theorem isBare_of_mem_walk (htree : tree.IsProper) {pieces : List Text}
    (hpieces : ∀ piece ∈ pieces, '/' ∉ piece) (h : IsFound spot.path)
    (hopen : literal? pattern = none) {last : Spot}
    (hlast : last ∈ walk tree (pieces.map escapedStep ++ [.everywhere, .name pattern]) spot) :
    IsBare last.path := by
  rw [walk_append] at hlast
  obtain ⟨base, hbase, hlast⟩ := List.mem_flatMap.1 hlast
  obtain ⟨way, hway, hnames, rfl⟩ := exists_of_mem_walk_below htree hopen hlast
  exact (isFound_of_mem_walk hpieces h hbase).descend hway hnames

end Lectern.Glob
