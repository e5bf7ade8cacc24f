import Lectern.Proofs.Glob.Search
import Lectern.Proofs.Text.Basic
import Lectern.Site.Lesson

/-!
# Searching for Lessons

The lessons of a directory are what a glob finds in it, as far as its paths begin with that of the
directory. They do so unless the path of the directory begins with a dot, which the search takes
away, or is not text, so that the glob is one of what is shown instead of it.

## Main results

* `filterMap_search`: below a directory whose lessons can be found, everything with the name of a
  lesson is found.
* `filterMap_search_eq_nil`: below any other directory, nothing is.
-/

namespace Lectern.Lesson

open Glob (Spot IsBare escapedStep waysBelow)

variable {tree : FileTree} {directory workingDirectory : Path} {location : Location}
  {segments : List Bytes}

/-! ### The glob of a directory -/

/-- The end of the names of lessons. -/
def nameEnding : Text := ".md".toList

/-- The pattern of the names of lessons. -/
def namePattern : List Glob.Token := .gap :: Glob.tokens (Glob.escape nameEnding)

/-- The steps of the glob of a directory that is shown as `s`. -/
theorem steps_escape_append (s : Text) : Glob.steps (Glob.escape s ++ "/**/*.md".toList) =
    (Text.splitOnChar '/' s).map Glob.escapedStep ++ [.everywhere, .name namePattern] := by
  have hend : (Text.splitOnChar '/' "**/*.md".toList).map Glob.Step.ofText =
      [.everywhere, .name namePattern] := by decide
  rw [Glob.steps, show "/**/*.md".toList = '/' :: "**/*.md".toList from rfl,
    Text.splitOnChar_append_cons, Glob.splitOnChar_escape, List.map_append, hend, List.map_map]
  exact congrArg (· ++ _) (List.map_congr_left fun piece _ => Glob.ofText_escape piece)

/-- The pattern of names leaves their start open. -/
theorem literal?_namePattern : Glob.literal? namePattern = none := rfl

/-! ### Searching below a directory -/

/-- The steps to segments as they are shown, and to lessons below them. -/
def stepsBelow (segments : List Bytes) : List Glob.Step :=
  (segments.map Path.display).map escapedStep ++ [.everywhere, .name namePattern]

/-- No slash is shown within a segment. -/
theorem slash_not_mem_of_mem_map_display
    (hsegments : ∀ segment ∈ segments, Path.slash ∉ segment) :
    ∀ piece ∈ segments.map Path.display, '/' ∉ piece := by
  intro piece hpiece
  obtain ⟨segment, hmem, rfl⟩ := List.mem_map.1 hpiece
  exact Text.slash_not_mem_decodeLossy (hsegments segment hmem)

/-- **All lessons are found** from a bare path, if the segments are text. -/
theorem walk_stepsBelow (htree : tree.IsProper) (spot : Spot)
    (hsegments : ∀ segment ∈ segments, Path.slash ∉ segment ∧ Path.shown segment = segment)
    (hwalk : tree.walk spot.location segments = .ok location)
    (hdirectory : tree.entry? location = some .directory) (hbare : IsBare spot.path) :
    ∃ base, IsBare base ∧ Path.components base =
        Path.components spot.path ++ segments.filterMap Path.Component.ofSegment? ∧
      Glob.walk tree (stepsBelow segments) spot =
        (waysBelow tree location namePattern).map (Spot.descend ⟨base, location⟩) := by
  have hpieces := slash_not_mem_of_mem_map_display fun segment hmem => (hsegments segment hmem).1
  have hshown : (segments.map Path.display).map Text.encode = segments := by
    rw [List.map_map]
    exact (List.map_congr_left fun segment hmem => (hsegments segment hmem).2).trans
      (List.map_id' _)
  obtain ⟨base, hbase⟩ := Glob.walk_escape htree hpieces (hshown.symm ▸ hwalk) hbare
  obtain ⟨hbare, hcomponents⟩ := Glob.components_of_mem_walk hpieces hbare
    (hbase ▸ List.mem_singleton_self (Spot.mk base location))
  rw [hshown] at hcomponents
  refine ⟨base, hbare, hcomponents, ?_⟩
  rw [stepsBelow, Glob.walk_append, hbase, List.flatMap_singleton,
    Glob.walk_below htree hdirectory literal?_namePattern]

/-- The paths that are found from a bare path begin with the segments as they are shown. -/
theorem components_of_mem_stepsBelow (htree : tree.IsProper) {spot : Spot}
    (hsegments : ∀ segment ∈ segments, Path.slash ∉ segment) (hbare : IsBare spot.path)
    {last : Spot} (hlast : last ∈ Glob.walk tree (stepsBelow segments) spot) :
    ∃ way : Location, Path.components last.path = Path.components spot.path ++
      (segments.map Path.shown).filterMap Path.Component.ofSegment? ++ way.map .name := by
  have hpieces := slash_not_mem_of_mem_map_display hsegments
  rw [stepsBelow, Glob.walk_append] at hlast
  obtain ⟨base, hbase, hlast⟩ := List.mem_flatMap.1 hlast
  obtain ⟨hbare, hcomponents⟩ := Glob.components_of_mem_walk hpieces hbare hbase
  obtain ⟨way, -, hnames, rfl⟩ := Glob.exists_of_mem_walk_below htree literal?_namePattern hlast
  refine ⟨way, ?_⟩
  rw [hbare.components_descend hnames, hcomponents, List.map_map]
  rfl

/-! ### The paths of lessons -/

/-- A path that goes on with names is seen as these from its beginning. -/
theorem namesBelow?_of_components {p : Path} {way : Location}
    (h : Path.components p = Path.components directory ++ way.map .name) :
    Path.namesBelow? directory p = some way := by
  have hnames : ∀ names : Location,
      (names.map Path.Component.name).mapM Path.Component.name? = some names := by
    intro names
    induction names with
    | nil => rfl
    | cons name names ih =>
      rw [List.map_cons, List.mapM_cons, ih]
      rfl
  rw [Path.namesBelow?, h, if_pos (List.isPrefixOf_iff_prefix.2 (List.prefix_append _ _)),
    List.drop_left, hnames]

/-- Only a path that begins with that of the directory is seen from there. -/
theorem components_prefix_of_namesBelow? {p : Path} {way : Location}
    (h : Path.namesBelow? directory p = some way) :
    Path.components directory <+: Path.components p := by
  unfold Path.namesBelow? at h
  split at h
  · next hprefix => exact List.isPrefixOf_iff_prefix.1 hprefix
  · cases h

/-- The segments of a text are text. -/
theorem shown_of_mem_segments (h : (Text.decode? directory).isSome = true) {segment : Bytes}
    (hmem : segment ∈ Path.segments directory) : Path.shown segment = segment := by
  obtain ⟨s, hs⟩ := Option.isSome_iff_exists.1 h
  rw [Text.decode?_eq_some_iff.1 hs, Path.segments_encode] at hmem
  obtain ⟨piece, -, rfl⟩ := List.mem_map.1 hmem
  rw [Path.shown, Path.display, Text.decodeLossy_encode]

/-- The steps of the glob of a directory. -/
theorem steps_glob (directory : Path) :
    Glob.steps (glob directory) = stepsBelow (Path.segments directory) := by
  rw [glob, steps_escape_append, Path.splitOnChar_display]
  rfl

/-- A relative path begins with a segment that is not empty. -/
theorem exists_segments_of_relative (habsolute : Path.isAbsolute directory = false)
    (hne : directory ≠ []) :
    ∃ first rest, Path.segments directory = first :: rest ∧ first ≠ [] := by
  obtain ⟨first, rest, hsegments⟩ :=
    List.exists_cons_of_ne_nil (FileTree.segments_ne_nil directory)
  refine ⟨first, rest, hsegments, ?_⟩
  rintro rfl
  obtain ⟨b, p, rfl⟩ := List.exists_cons_of_ne_nil hne
  simp only [Path.isAbsolute, List.head?_cons, beq_eq_false_iff_ne, ne_eq,
    Option.some.injEq] at habsolute
  simp only [Path.segments, if_neg habsolute] at hsegments
  split at hsegments <;> simp at hsegments

/-- A path without a dot at its start begins with a segment that is none. -/
theorem ne_dot_of_segments {first : Bytes} {rest : List Bytes}
    (hsegments : Path.segments directory = first :: rest)
    (hhere : (Path.components directory).head? ≠ some .here) : first ≠ [Path.dot] := by
  rintro rfl
  exact hhere (by simp [Path.components, hsegments])

/-- The components of a path that begins with neither a slash nor a dot. -/
theorem components_of_segments {first : Bytes} {rest : List Bytes}
    (hsegments : Path.segments directory = first :: rest) (hempty : first ≠ [])
    (hdot : first ≠ [Path.dot]) : Path.components directory =
      [first].filterMap Path.Component.ofSegment? ++
        rest.filterMap Path.Component.ofSegment? := by
  simp only [Path.components, hsegments, if_neg hempty, if_neg hdot]
  cases hfirst : Path.Component.ofSegment? first <;> simp [hfirst]

/-- The search below an absolute directory starts at the root. -/
theorem start?_absolute (rest : Path) :
    Glob.start? tree workingDirectory (glob (Path.slash :: rest)) =
      some (⟨[Path.slash], []⟩, stepsBelow (Path.segments rest)) := by
  have hglob : glob (Path.slash :: rest) = '/' :: glob rest := by
    rw [glob, Path.display_slash_cons]
    rfl
  rw [hglob, Glob.start?, steps_glob]

/-- The search below a relative directory starts where a dot leads. -/
theorem start?_relative (habsolute : Path.isAbsolute directory = false) (hne : directory ≠ []) :
    Glob.start? tree workingDirectory (glob directory) =
      (tree.locate (Path.join workingDirectory [Path.dot])).toOption.map fun location =>
        (⟨[Path.dot], location⟩, stepsBelow (Path.segments directory)) := by
  obtain ⟨first, rest, hsegments, hfirst⟩ := exists_segments_of_relative habsolute hne
  unfold Glob.start?
  split
  · next glob t hglob =>
    -- the first step would be that of nothing
    have hsteps := steps_glob directory
    rw [hglob, hsegments] at hsteps
    have hstep : Glob.Step.name [] = escapedStep (Path.display first) := (List.cons.inj hsteps).1
    have htokens := Glob.Step.name.inj hstep
    rw [Glob.tokens_escape] at htokens
    have hempty : Path.display first = [] := List.map_eq_nil_iff.1 htokens.symm
    exact absurd (Path.shown_eq_iff.1.1 (congrArg Text.encode hempty)) hfirst
  · rw [steps_glob]
    cases tree.locate (Path.join workingDirectory [Path.dot]) <;> rfl

/-- What a search finds below a relative directory is reached from a dot. -/
theorem exists_of_mem_search (habsolute : Path.isAbsolute directory = false)
    (hne : directory ≠ []) {p : Path}
    (hp : p ∈ Glob.search tree workingDirectory (glob directory)) :
    ∃ location, ∃ last ∈ Glob.walk tree (stepsBelow (Path.segments directory))
      ⟨[Path.dot], location⟩, last.path = p := by
  rw [Glob.search, start?_relative habsolute hne] at hp
  cases hhere : tree.locate (Path.join workingDirectory [Path.dot]) with
  | error fault =>
    rw [hhere] at hp
    cases hp
  | ok location =>
    rw [hhere] at hp
    obtain ⟨last, hlast, hpath⟩ := List.mem_map.1 hp
    exact ⟨location, last, hlast, hpath⟩

/-! ### What is found -/

/-- Whether lessons **can be found** below a directory: its path is text and does not begin with a
dot. -/
structure IsFindable (directory : Path) : Prop where
  bare : (Path.components directory).head? ≠ some .here
  text : (Text.decode? directory).isSome = true

/-- The first step is taken from the dot at which a search starts, and leaves no dot. -/
theorem reach_of_dot (htree : tree.IsProper) {first : Bytes} {start next : Location}
    (hstep : tree.step start first = .ok next) (hslash : Path.slash ∉ first)
    (hshown : Path.shown first = first) (hempty : first ≠ []) :
    (Spot.mk [Path.dot] start).reach tree (escapedStep (Path.display first)) =
      [⟨first, next⟩] := by
  have hshow : Text.encode (Path.display first) = first := hshown
  have hpiece : '/' ∉ Path.display first := Text.slash_not_mem_decodeLossy hslash
  have hnil : Path.display first ≠ [] := fun hnil =>
    hempty (Path.shown_eq_iff.1.1 (congrArg Text.encode hnil))
  have hreach := Glob.reach_escape htree ⟨[Path.dot], start⟩ (hshow.symm ▸ hstep) hpiece
    (.inr hnil)
  rwa [hshow] at hreach

/-- The lessons in a directory that a search has reached. -/
theorem filterMap_descend (htree : tree.IsProper)
    (hdirectory : tree.entry? location = some .directory) {base : Path} (hbare : IsBare base)
    (hbase : Path.components base = Path.components directory) :
    ((waysBelow tree location namePattern).map fun way =>
        (Spot.descend ⟨base, location⟩ way).path).filterMap (Path.namesBelow? directory) =
      waysBelow tree location namePattern := by
  have hway : ∀ way ∈ waysBelow tree location namePattern,
      Path.namesBelow? directory (Spot.descend ⟨base, location⟩ way).path = some way := by
    intro way hmem
    have hentry := ((Glob.mem_waysBelow htree hdirectory).1 hmem).2
    refine namesBelow?_of_components ?_
    rw [hbare.components_descend fun name hname =>
      htree.isName_of_mem hentry (List.mem_append_right _ hname), hbase]
  rw [List.filterMap_map]
  exact (List.filterMap_congr hway).trans List.filterMap_some

/-- **Below a directory whose lessons can be found**, everything with the name of a lesson is. -/
theorem filterMap_search (htree : tree.IsProper) (hne : directory ≠ [])
    (hlocate : tree.locate (Path.join workingDirectory directory) = .ok location)
    (hdirectory : tree.entry? location = some .directory) (h : IsFindable directory) :
    (Glob.search tree workingDirectory (glob directory)).filterMap (Path.namesBelow? directory) =
      waysBelow tree location namePattern := by
  have hsegments : ∀ segment ∈ Path.segments directory,
      Path.slash ∉ segment ∧ Path.shown segment = segment := fun segment hmem =>
    ⟨Path.slash_not_mem_of_mem_segments hmem, shown_of_mem_segments h.text hmem⟩
  cases habsolute : Path.isAbsolute directory with
  | true =>
    obtain ⟨rest, rfl⟩ := Path.isAbsolute_iff.1 habsolute
    rw [Path.join, if_pos habsolute] at hlocate
    obtain ⟨-, -, hwalk⟩ := FileTree.walk_of_locate hlocate
    have hroot : Path.segments (Path.slash :: rest) = [] :: Path.segments rest := rfl
    rw [hroot] at hsegments hwalk
    have hrest : tree.walk [] (Path.segments rest) = .ok location := by
      simpa [FileTree.walk, FileTree.step, Path.isSilent] using hwalk
    obtain ⟨base, hbare, hbase, hfound⟩ := walk_stepsBelow htree ⟨[Path.slash], []⟩
      (List.forall_mem_cons.1 hsegments).2 hrest hdirectory ⟨by decide, by decide⟩
    have hcomponents : Path.components base = Path.components (Path.slash :: rest) := by
      rw [hbase, Path.components_slash_cons]
      rfl
    rw [Glob.search, start?_absolute]
    simp only [hfound, List.map_map]
    exact filterMap_descend htree hdirectory hbare hcomponents
  | false =>
    obtain ⟨first, rest, hfirst, hempty⟩ := exists_segments_of_relative habsolute hne
    obtain ⟨here, hhere, hwalk⟩ := FileTree.exists_locate_here habsolute hne hlocate
    rw [hfirst] at hsegments hwalk
    obtain ⟨⟨hslash, hshown⟩, hrest⟩ := List.forall_mem_cons.1 hsegments
    have hdot := ne_dot_of_segments hfirst h.bare
    obtain ⟨hbare, hcomponents⟩ := Glob.isBare_segment hslash hempty hdot
    rw [FileTree.walk] at hwalk
    split at hwalk
    · next next hstep =>
      obtain ⟨base, hbare, hbase, hfound⟩ :=
        walk_stepsBelow htree ⟨first, next⟩ hrest hwalk hdirectory hbare
      have hcomponents : Path.components base = Path.components directory := by
        rw [hbase, hcomponents, components_of_segments hfirst hempty hdot]
      have hsearch : Glob.walk tree (stepsBelow (first :: rest)) ⟨[Path.dot], here⟩ =
          Glob.walk tree (stepsBelow rest) ⟨first, next⟩ := by
        show ((Spot.mk [Path.dot] here).reach tree (escapedStep (Path.display first))).flatMap
          (Glob.walk tree (stepsBelow rest)) = _
        rw [reach_of_dot htree hstep hslash hshown hempty, List.flatMap_singleton]
      rw [Glob.search, start?_relative habsolute hne, hhere]
      simp only [Except.toOption, Option.map_some, hfirst, hsearch, hfound, List.map_map]
      exact filterMap_descend htree hdirectory hbare hcomponents
    · cases hwalk

/-- What a search finds below a directory with no dot at its start begins with what is shown of
the directory. -/
theorem components_of_mem_search (htree : tree.IsProper) (hne : directory ≠ [])
    (hhere : (Path.components directory).head? ≠ some .here) {p : Path}
    (hp : p ∈ Glob.search tree workingDirectory (glob directory)) :
    ∃ way : Location, Path.components p =
      Path.components (Path.shown directory) ++ way.map .name := by
  have hslash : ∀ segment ∈ Path.segments directory, Path.slash ∉ segment := fun segment =>
    Path.slash_not_mem_of_mem_segments
  have hsegments := Path.segments_shown directory
  cases habsolute : Path.isAbsolute directory with
  | true =>
    obtain ⟨rest, rfl⟩ := Path.isAbsolute_iff.1 habsolute
    rw [Glob.search, start?_absolute] at hp
    obtain ⟨last, hlast, rfl⟩ := List.mem_map.1 hp
    have hstart : IsBare (Spot.mk [Path.slash] []).path := ⟨by decide, by decide⟩
    obtain ⟨way, hway⟩ := components_of_mem_stepsBelow htree
      (fun segment hmem => hslash segment (List.mem_cons_of_mem _ hmem)) hstart hlast
    refine ⟨way, ?_⟩
    rw [hway, Path.shown, Path.display_slash_cons, ← Path.segments_shown]
    exact congrArg (· ++ way.map .name) (Path.components_slash_cons (Path.shown rest)).symm
  | false =>
    obtain ⟨first, rest, hfirst, hempty⟩ := exists_segments_of_relative habsolute hne
    obtain ⟨location, last, hlast, rfl⟩ := exists_of_mem_search habsolute hne hp
    rw [hfirst] at hlast hsegments hslash
    obtain ⟨hfirstSlash, hrest⟩ := List.forall_mem_cons.1 hslash
    obtain ⟨hemptyIff, hdotIff, -⟩ := @Path.shown_eq_iff first
    have hdot := ne_dot_of_segments hfirst hhere
    obtain ⟨hbare, hcomponents⟩ := @Glob.isBare_segment (Path.shown first)
      (Text.slash_not_mem_encode (Text.slash_not_mem_decodeLossy hfirstSlash))
      (mt hemptyIff.1 hempty) (mt hdotIff.1 hdot)
    obtain ⟨next, hnext, hlast⟩ := List.mem_flatMap.1 hlast
    have hpath : next.path = Path.shown first := (Glob.path_of_mem_reach hnext).1
    obtain ⟨way, hway⟩ := components_of_mem_stepsBelow htree hrest (hpath ▸ hbare) hlast
    refine ⟨way, ?_⟩
    rw [hway, hpath, hcomponents,
      components_of_segments hsegments (mt hemptyIff.1 hempty) (mt hdotIff.1 hdot)]

/-- **Below any other directory** nothing is found. -/
theorem filterMap_search_eq_nil (htree : tree.IsProper) (hne : directory ≠ [])
    (h : ¬ IsFindable directory) :
    (Glob.search tree workingDirectory (glob directory)).filterMap (Path.namesBelow? directory) =
      [] := by
  rw [List.filterMap_eq_nil_iff]
  intro p hp
  rw [← Option.not_isSome_iff_eq_none]
  intro hway
  obtain ⟨way, hway⟩ := Option.isSome_iff_exists.1 hway
  obtain ⟨more, hmore⟩ := components_prefix_of_namesBelow? hway
  by_cases hhere : (Path.components directory).head? = some .here
  · have habsolute : Path.isAbsolute directory = false := by
      refine Bool.eq_false_iff.2 fun habsolute => ?_
      obtain ⟨rest, rfl⟩ := Path.isAbsolute_iff.1 habsolute
      simp [Path.components_slash_cons] at hhere
    obtain ⟨location, last, hlast, rfl⟩ := exists_of_mem_search habsolute hne hp
    have hpieces := slash_not_mem_of_mem_map_display fun segment =>
      @Path.slash_not_mem_of_mem_segments directory segment
    have hstart : Glob.IsFound (Spot.mk [Path.dot] location).path := .inl rfl
    have hbare := Glob.isBare_of_mem_walk htree hpieces hstart literal?_namePattern hlast
    refine hbare.head ?_
    rw [← hmore, List.head?_append, hhere]
    rfl
  · obtain ⟨names, hnames⟩ := components_of_mem_search htree hne hhere hp
    have hlength : (Path.components directory).length =
        (Path.components (Path.shown directory)).length := by
      rw [Path.components_shown, List.length_map]
    have hshown := List.append_inj_left (hmore.trans hnames) hlength
    exact h ⟨hhere, Path.isSome_decode?_of_components hshown.symm⟩

end Lectern.Lesson
