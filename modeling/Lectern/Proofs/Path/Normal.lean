import Lectern.Path
import Mathlib.Data.List.Basic
import Mathlib.Data.List.TakeWhile

/-!
# Normal Paths

A path is **normal** if it leads from the root along names only: no dots, no repeated slash and no
slash at the end. Normalizing an absolute path gives a normal one, and a normal path is left as it
is. A name at the end of a normal path, or right behind its last name, gives a normal path again, so
the places where a file is looked for stay normal.

## Main results

* `segments_eq_splitOn`: segments are what the list library splits at slashes.
* `components_ofNames`: the components of a path that is built from names.
* `isNormal_normalize`, `IsNormal.normalize_eq`: normal paths are the values and the fixed points of
  normalizing absolute paths.
-/

namespace Lectern.Path

/-! ### Segments -/

/-- The segments of a path are its parts between slashes. -/
theorem segments_eq_splitOn (p : Path) : segments p = p.splitOn slash := by
  induction p with
  | nil => rfl
  | cons b rest ih =>
    obtain ⟨segment, more, hrest⟩ := List.exists_cons_of_ne_nil (List.splitOn_ne_nil slash rest)
    by_cases hb : b = slash <;>
      simp [segments, List.splitOn_cons_eq_if_modifyHead, ih, hrest, hb]

/-- No slash is left in a segment. -/
theorem slash_not_mem_of_mem_segments {p : Path} {segment : Bytes} (h : segment ∈ segments p) :
    slash ∉ segment := by
  induction p generalizing segment with
  | nil => simp_all [segments]
  | cons b rest ih =>
    by_cases hb : b = slash
    · rw [segments, if_pos hb] at h
      rcases List.mem_cons.1 h with rfl | h
      · simp
      · exact ih h
    · rw [segments, if_neg hb] at h
      split at h
      · next first more hrest =>
        rcases List.mem_cons.1 h with rfl | h
        · simpa [Ne.symm hb] using ih (by simp [hrest])
        · exact ih (by simp [hrest, h])
      · simpa [List.mem_singleton.1 h] using Ne.symm hb

/-- Segments that hold no slash are read back. -/
theorem segments_ofSegments {parts : List Bytes} (hne : parts ≠ [])
    (hparts : ∀ part ∈ parts, slash ∉ part) : segments (ofSegments parts) = parts := by
  rw [segments_eq_splitOn, ofSegments, List.splitOn_intercalate slash hparts hne]

/-- One more segment stands behind a slash. -/
theorem ofSegments_concat {parts : List Bytes} (hne : parts ≠ []) (part : Bytes) :
    ofSegments (parts ++ [part]) = ofSegments parts ++ slash :: part := by
  induction parts with
  | nil => exact absurd rfl hne
  | cons first parts ih =>
    match parts with
    | [] => simp [ofSegments]
    | second :: parts =>
      have hrest := ih (by simp)
      simp only [ofSegments, List.cons_append, List.intercalate_cons_cons, List.append_assoc,
        List.nil_append] at hrest ⊢
      rw [hrest]

/-! ### Names -/

/-- Whether a segment is a **name**: neither empty nor one of the two steps of dots. -/
structure IsName (segment : Bytes) : Prop where
  ne_nil : segment ≠ []
  ne_dot : segment ≠ [dot]
  ne_dots : segment ≠ [dot, dot]
  slash_not_mem : slash ∉ segment

instance (segment : Bytes) : Decidable (IsName segment) :=
  decidable_of_iff (segment ≠ [] ∧ segment ≠ [dot] ∧ segment ≠ [dot, dot] ∧ slash ∉ segment)
    ⟨fun h => ⟨h.1, h.2.1, h.2.2.1, h.2.2.2⟩,
      fun h => ⟨h.ne_nil, h.ne_dot, h.ne_dots, h.slash_not_mem⟩⟩

/-- A name is a component of its own. -/
theorem IsName.ofSegment? {segment : Bytes} (h : IsName segment) :
    Component.ofSegment? segment = some (.name segment) := by
  simp [Component.ofSegment?, h.ne_nil, h.ne_dot, h.ne_dots]

/-- Only a name is read as a component with a name, and it is that name. -/
theorem isName_of_ofSegment? {segment name : Bytes} (hslash : slash ∉ segment)
    (h : Component.ofSegment? segment = some (.name name)) : IsName name := by
  by_cases hnil : segment = []
  · simp [Component.ofSegment?, hnil] at h
  by_cases hdot : segment = [dot]
  · simp [Component.ofSegment?, hdot] at h
  by_cases hdots : segment = [dot, dot]
  · simp [Component.ofSegment?, hdots] at h
  obtain rfl : segment = name := by simpa [Component.ofSegment?, hnil, hdot, hdots] using h
  exact ⟨hnil, hdot, hdots, hslash⟩

/-- Two names written together are a name. -/
theorem IsName.append {first second : Bytes} (hfirst : IsName first) (hsecond : IsName second) :
    IsName (first ++ second) := by
  obtain ⟨b, first, rfl⟩ := List.exists_cons_of_ne_nil hfirst.ne_nil
  obtain ⟨c, second, rfl⟩ := List.exists_cons_of_ne_nil hsecond.ne_nil
  refine ⟨by simp, by simp, fun hdots => ?_, fun hmem => ?_⟩
  · have hdot : b :: first = [dot] := by
      rcases first with _ | ⟨d, first⟩ <;> simp_all
    exact hfirst.ne_dot hdot
  · exact (List.mem_append.1 hmem).elim hfirst.slash_not_mem hsecond.slash_not_mem

/-- A name does not end with a slash. -/
theorem IsName.getLast?_ne {segment : Bytes} (h : IsName segment) :
    ∃ b, segment.getLast? = some b ∧ b ≠ slash := by
  refine ⟨segment.getLast h.ne_nil, List.getLast?_eq_some_getLast h.ne_nil, fun heq => ?_⟩
  exact h.slash_not_mem (heq ▸ List.getLast_mem h.ne_nil)

/-- The components of a path from the root. -/
theorem components_slash_cons (rest : Path) :
    components (slash :: rest) = .root :: (segments rest).filterMap Component.ofSegment? := by
  simp [components, segments]

/-- An absolute path starts with a slash. -/
theorem isAbsolute_iff {p : Path} : isAbsolute p = true ↔ ∃ rest, p = slash :: rest := by
  cases p <;> simp [isAbsolute]

/-- A name is a relative path. -/
theorem IsName.isAbsolute_eq_false {segment : Bytes} (h : IsName segment) :
    isAbsolute segment = false := by
  refine Bool.eq_false_iff.2 fun habsolute => ?_
  obtain ⟨rest, rfl⟩ := isAbsolute_iff.1 habsolute
  exact h.slash_not_mem (by simp)

/-- The names among the components of a path are names. -/
theorem isName_of_mem_components {p : Path} {name : Bytes} (h : .name name ∈ components p) :
    IsName name := by
  have hread : ∀ segment ∈ segments p, Component.ofSegment? segment = some (.name name) →
      IsName name := fun segment hmem => isName_of_ofSegment? (slash_not_mem_of_mem_segments hmem)
  unfold components at h
  split at h
  · contradiction
  · next first rest hsegments =>
    rw [hsegments] at hread
    rcases List.mem_append.1 h with hfirst | hrest
    · refine hread first (by simp) ?_
      split at hfirst
      · split at hfirst <;> simp at hfirst
      · split at hfirst
        · simp at hfirst
        · exact Option.mem_toList.1 hfirst
    · obtain ⟨segment, hmem, hsegment⟩ := List.mem_filterMap.1 hrest
      exact hread segment (by simp [hmem]) hsegment

/-- The path of one name from the root. -/
theorem ofNames_singleton (name : Bytes) : ofNames true [name] = slash :: name := by
  simp [ofNames, ofSegments]

/-- One more name stands behind a slash. -/
theorem ofNames_concat {names : List Bytes} (hne : names ≠ []) (name : Bytes) :
    ofNames true (names ++ [name]) = ofNames true names ++ slash :: name := by
  simp [ofNames, ofSegments_concat hne]

/-- The path of names from the root does not end with a slash, unless it is the root. -/
theorem getLast?_ofNames_concat {last : Bytes} (hlast : IsName last) (before : List Bytes) :
    (ofNames true (before ++ [last])).getLast? ≠ some slash := by
  obtain ⟨b, hb, hslash⟩ := hlast.getLast?_ne
  by_cases hbefore : before = []
  · simpa [hbefore, ofNames_singleton, List.getLast?_cons, hb] using hslash
  · simpa [ofNames_concat hbefore, List.getLast?_append, List.getLast?_cons, hb] using hslash

/-- The path of names from the root has these names as its components. -/
theorem components_ofNames {names : List Bytes} (hnames : ∀ name ∈ names, IsName name) :
    components (ofNames true names) = .root :: names.map .name := by
  rw [ofNames, if_pos rfl, components_slash_cons]
  match names with
  | [] => simp [ofSegments, segments, Component.ofSegment?]
  | first :: rest =>
    rw [segments_ofSegments (by simp) fun name hmem => (hnames name hmem).slash_not_mem]
    exact congrArg (Component.root :: ·) (List.filterMap_eq_map_iff_forall_eq_some.2
      fun name hmem => (hnames name hmem).ofSegment?)

/-! ### Joining -/

/-- What follows a slash adds its components. -/
theorem components_append_slash {base : Path} (hbase : base ≠ []) (p : Path) :
    components (base ++ slash :: p) =
      components base ++ (segments p).filterMap Component.ofSegment? := by
  have hsegments : segments (base ++ slash :: p) = segments base ++ segments p := by
    simp [segments_eq_splitOn, List.splitOn_append_cons_self]
  obtain ⟨first, rest, hfirst⟩ : ∃ first rest, segments base = first :: rest :=
    List.exists_cons_of_ne_nil (by simp [segments_eq_splitOn])
  simp [components, hsegments, hfirst, hbase]

/-- **The components of a relative path** follow those of the directory from which it is seen. -/
theorem components_join {base p : Path} (hbase : base ≠ []) (hp : isAbsolute p = false) :
    components (join base p) =
      components base ++ (segments p).filterMap Component.ofSegment? := by
  rw [join, hp, if_neg (by simp)]
  by_cases hslash : base.getLast? = some slash
  · obtain ⟨front, rfl⟩ := List.getLast?_eq_some_iff.1 hslash
    rw [if_pos (by simp), List.append_assoc, List.singleton_append]
    by_cases hfront : front = []
    · simp [hfront, components_slash_cons, segments, Component.ofSegment?]
    · simp [components_append_slash hfront, segments, Component.ofSegment?]
  · rw [if_neg (by simp [hbase, hslash]), components_append_slash hbase]

/-- What is seen from an absolute directory is absolute. -/
theorem isAbsolute_join {base : Path} (hbase : isAbsolute base = true) (p : Path) :
    isAbsolute (join base p) = true := by
  obtain ⟨rest, rfl⟩ := isAbsolute_iff.1 hbase
  unfold join
  split
  · assumption
  · split <;> exact isAbsolute_iff.2 ⟨_, rfl⟩

/-- A name in the directory of a path of names is one more. -/
theorem join_ofNames {names : List Bytes} {name : Bytes} (hnames : ∀ part ∈ names, IsName part)
    (hname : IsName name) : join (ofNames true names) name = ofNames true (names ++ [name]) := by
  rcases names.eq_nil_or_concat' with rfl | ⟨before, last, rfl⟩
  · rw [List.nil_append, ofNames_singleton, join, hname.isAbsolute_eq_false, if_neg (by simp)]
    rfl
  · have hconcat : ofNames true (before ++ [last] ++ [name]) =
        ofNames true (before ++ [last]) ++ slash :: name := ofNames_concat (by simp) name
    have hend := getLast?_ofNames_concat (hnames last (by simp)) before
    have hnonempty : ofNames true (before ++ [last]) ≠ [] := by simp [ofNames]
    rw [hconcat, join, hname.isAbsolute_eq_false, if_neg (by simp),
      if_neg (by simp [hnonempty, hend])]

/-! ### Directories on the way -/

/-- Whether a path **passes through** directories, each of them in the one before. -/
def PassesThrough (p : Path) (directories : List Bytes) : Prop :=
  ∃ above below, components p = above ++ directories.map .name ++ below ∧ below ≠ []

/-- Whether a path leads to something with a name that ends like this. -/
def NameEndsWith (p : Path) (ending : Bytes) : Prop := ∃ stem, fileName? p = some (stem ++ ending)

/-- An absolute path has its root before the directories through which it passes. -/
theorem PassesThrough.exists_root {p : Path} {directories : List Bytes}
    (h : PassesThrough p directories) (habsolute : isAbsolute p = true) (hne : directories ≠ []) :
    ∃ above below, components p = .root :: (above ++ directories.map .name ++ below) ∧
      below ≠ [] := by
  obtain ⟨above, below, hcomponents, hbelow⟩ := h
  obtain ⟨rest, rfl⟩ := isAbsolute_iff.1 habsolute
  obtain ⟨first, directories, rfl⟩ := List.exists_cons_of_ne_nil hne
  rw [components_slash_cons] at hcomponents ⊢
  cases above with
  | nil => simp at hcomponents
  | cons step above =>
    simp only [List.cons_append, List.cons.injEq] at hcomponents
    exact ⟨above, below, congrArg (Component.root :: ·) hcomponents.2, hbelow⟩

/-- The last component of a path is its name. -/
theorem NameEndsWith.exists_concat {p : Path} {ending : Bytes} (h : NameEndsWith p ending)
    (above : List Component) {below : List Component}
    (hcomponents : components p = above ++ below) (hbelow : below ≠ []) :
    ∃ front stem, below = front ++ [.name (stem ++ ending)] := by
  obtain ⟨stem, hstem⟩ := h
  obtain ⟨front, last, rfl⟩ := below.eq_nil_or_concat'.resolve_left hbelow
  refine ⟨front, stem, ?_⟩
  unfold fileName? at hstem
  rw [hcomponents, ← List.append_assoc, List.getLast?_concat] at hstem
  cases last <;> simp_all

/-- A path that passes through directories passes through the first of them. -/
theorem PassesThrough.head {p : Path} {directory : Bytes} {directories : List Bytes}
    (h : PassesThrough p (directory :: directories)) : PassesThrough p [directory] := by
  obtain ⟨above, below, hcomponents, hbelow⟩ := h
  refine ⟨above, directories.map .name ++ below, ?_, by simp [hbelow]⟩
  simpa using hcomponents

/-- The directories through which a path passes are components of it. -/
theorem PassesThrough.mem_components {p : Path} {directories : List Bytes}
    (h : PassesThrough p directories) {directory : Bytes} (hmem : directory ∈ directories) :
    .name directory ∈ components p := by
  obtain ⟨above, below, hcomponents, -⟩ := h
  simp [hcomponents, hmem]

/-! ### Extensions -/

/-- The last dot of a name divides it, unless it is the first character. -/
theorem splitExtension_append {ending : Bytes} (h : dot ∉ ending) (stem : Bytes) :
    splitExtension (stem ++ dot :: ending) =
      if stem = [] then (dot :: ending, none) else (stem, some ending) := by
  have hextension : ((stem ++ dot :: ending).reverse.takeWhile (· != dot)).reverse = ending := by
    have hall : ∀ b ∈ ending.reverse, (b != dot) = true := fun b hmem =>
      bne_iff_ne.2 (ne_of_mem_of_not_mem (List.mem_reverse.1 hmem) h)
    rw [List.reverse_append, List.reverse_cons, List.append_assoc,
      List.takeWhile_append_of_pos hall]
    simp
  have hstem : (stem ++ dot :: ending).take ((stem ++ dot :: ending).length - ending.length - 1) =
      stem := by
    refine List.take_left' ?_
    simp only [List.length_append, List.length_cons]
    omega
  have hlength : ending.length ≠ (stem ++ dot :: ending).length := by
    simp only [List.length_append, List.length_cons]
    omega
  simp only [splitExtension, hextension, hstem, hlength]
  split <;> simp_all

/-- A name without a dot has no extension. -/
theorem splitExtension_of_not_mem {name : Bytes} (h : dot ∉ name) :
    splitExtension name = (name, none) := by
  have hall : ∀ b ∈ name.reverse, (b != dot) = true := fun b hmem =>
    bne_iff_ne.2 (ne_of_mem_of_not_mem (List.mem_reverse.1 hmem) h)
  have hwhole : name.reverse.takeWhile (· != dot) = name.reverse :=
    List.takeWhile_eq_self_iff.2 hall
  simp [splitExtension, hwhole]

/-- **The extension of a path** stands behind a dot at the end of its name, which has something
before that dot. -/
theorem extension?_eq_some_iff {p : Path} {ending : Bytes} (h : dot ∉ ending) :
    extension? p = some ending ↔
      NameEndsWith p (dot :: ending) ∧ fileName? p ≠ some (dot :: ending) := by
  constructor
  · intro hextension
    obtain ⟨name, hname, hsplit⟩ := Option.bind_eq_some_iff.1 hextension
    by_cases hdot : dot ∈ name
    · obtain ⟨back, front, heq, hback⟩ := List.eq_append_cons_of_mem (List.mem_reverse.2 hdot)
      obtain rfl : name = front.reverse ++ dot :: back.reverse := by
        simpa using congrArg List.reverse heq
      rw [splitExtension_append (by simpa using hback)] at hsplit
      split at hsplit
      · cases hsplit
      · next hstem =>
        obtain rfl : back.reverse = ending := Option.some.inj hsplit
        refine ⟨⟨front.reverse, hname⟩, ?_⟩
        rw [hname]
        simpa using hstem
    · rw [splitExtension_of_not_mem hdot] at hsplit
      cases hsplit
  · rintro ⟨⟨stem, hname⟩, hne⟩
    have hstem : stem ≠ [] := by
      rintro rfl
      exact hne hname
    rw [extension?, hname, Option.bind_some, splitExtension_append h, if_neg hstem]

/-! ### Normal paths -/

/-- Whether a path is **normal**: names from the root, and nothing else. -/
def IsNormal (p : Path) : Prop :=
  ∃ names : List Bytes, (∀ name ∈ names, IsName name) ∧ p = ofNames true names

/-- One component of a path keeps names to be names. -/
theorem isName_of_mem_normalizeStep {names : List Bytes} (hnames : ∀ name ∈ names, IsName name)
    {component : Component} (hcomponent : ∀ name, component = .name name → IsName name) :
    ∀ name ∈ normalizeStep names component, IsName name := by
  cases component with
  | root | here => exact hnames
  | up => exact fun name hmem => hnames name (List.mem_of_mem_tail hmem)
  | name bytes => exact List.forall_mem_cons.2 ⟨hcomponent bytes rfl, hnames⟩

/-- All components of a path keep names to be names. -/
theorem isName_of_mem_foldl {names : List Bytes} (hnames : ∀ name ∈ names, IsName name)
    {steps : List Component} (hsteps : ∀ name, .name name ∈ steps → IsName name) :
    ∀ name ∈ steps.foldl normalizeStep names, IsName name := by
  induction steps generalizing names with
  | nil => exact hnames
  | cons step steps ih =>
    refine ih (isName_of_mem_normalizeStep hnames fun name hname => ?_) fun name hmem => ?_
    · exact hsteps name (by simp [hname])
    · exact hsteps name (by simp [hmem])

/-- What is left of a path when dots are resolved are names. -/
theorem isName_of_mem_normalizedNames {p : Path} :
    ∀ name ∈ normalizedNames p, IsName name := by
  intro name hmem
  exact isName_of_mem_foldl (List.forall_mem_nil _) (fun _ => isName_of_mem_components) name
    (List.mem_reverse.1 hmem)

/-- **Normalizing an absolute path** gives a normal one. -/
theorem isNormal_normalize {p : Path} (h : isAbsolute p = true) : IsNormal (normalize p) :=
  ⟨normalizedNames p, isName_of_mem_normalizedNames, by rw [normalize, h]⟩

/-- Normalizing makes no path absolute. -/
theorem isAbsolute_of_normalize {p : Path} (h : isAbsolute (normalize p) = true) :
    isAbsolute p = true := by
  by_contra hrelative
  rw [Bool.not_eq_true] at hrelative
  rw [normalize, hrelative, ofNames, if_neg (by simp)] at h
  have hnames := isName_of_mem_normalizedNames (p := p)
  match hparts : normalizedNames p with
  | [] => simp [hparts, ofSegments, isAbsolute] at h
  | first :: rest =>
    have hfirst : IsName first := hnames first (by simp [hparts])
    obtain ⟨b, first, rfl⟩ := List.exists_cons_of_ne_nil hfirst.ne_nil
    obtain rfl : b = slash := by
      cases rest <;> simpa [hparts, ofSegments, isAbsolute] using h
    exact hfirst.slash_not_mem (by simp)

/-- Names are stacked one by one. -/
theorem foldl_normalizeStep_names (names stacked : List Bytes) :
    (names.map Component.name).foldl normalizeStep stacked = names.reverse ++ stacked := by
  induction names generalizing stacked with
  | nil => rfl
  | cons name names ih => simp [ih, normalizeStep]

/-- Steps without two dots take no name back. -/
theorem exists_foldl_normalizeStep {steps : List Component} (hsteps : .up ∉ steps)
    (names : List Bytes) :
    ∃ below, steps.foldl normalizeStep names = below ++ names := by
  induction steps generalizing names with
  | nil => exact ⟨[], rfl⟩
  | cons step steps ih =>
    obtain ⟨hstep, hrest⟩ := not_or.1 (mt List.mem_cons.2 hsteps)
    obtain ⟨below, hbelow⟩ := ih hrest (normalizeStep names step)
    rw [List.foldl_cons, hbelow]
    cases step with
    | root | here => exact ⟨below, rfl⟩
    | up => exact absurd rfl hstep
    | name bytes => exact ⟨below ++ [bytes], by simp [normalizeStep]⟩

namespace IsNormal

variable {p : Path} {name : Bytes}

/-- A normal path is absolute. -/
theorem isAbsolute (h : IsNormal p) : isAbsolute p = true := by
  obtain ⟨names, -, rfl⟩ := h
  exact isAbsolute_iff.2 ⟨_, rfl⟩

/-- **A normal path is left as it is.** -/
theorem normalize_eq (h : IsNormal p) : normalize p = p := by
  obtain ⟨names, hnames, rfl⟩ := id h
  have hstack : normalizedNames (ofNames true names) = names := by
    rw [normalizedNames, components_ofNames hnames, List.foldl_cons,
      foldl_normalizeStep_names]
    simp [normalizeStep]
  rw [normalize, h.isAbsolute, hstack]

/-- **A name right behind a normal path** lengthens its last name, or is the only one. -/
theorem append (h : IsNormal p) (hname : IsName name) : IsNormal (p ++ name) := by
  obtain ⟨names, hnames, rfl⟩ := h
  rcases names.eq_nil_or_concat' with rfl | ⟨before, last, rfl⟩
  · exact ⟨[name], by simpa using hname, (ofNames_singleton name).symm⟩
  · refine ⟨before ++ [last ++ name], ?_, ?_⟩
    · obtain ⟨hbefore, hlast⟩ := List.forall_mem_append.1 hnames
      refine List.forall_mem_append.2 ⟨hbefore, List.forall_mem_singleton.2 ?_⟩
      exact (List.forall_mem_singleton.1 hlast).append hname
    · by_cases hbefore : before = []
      · simp [hbefore, ofNames_singleton]
      · simp [ofNames_concat hbefore]

/-- **A name in the directory of a normal path** gives a normal path. -/
theorem join (h : IsNormal p) (hname : IsName name) : IsNormal (join p name) := by
  obtain ⟨names, hnames, rfl⟩ := h
  exact ⟨names ++ [name],
    List.forall_mem_append.2 ⟨hnames, List.forall_mem_singleton.2 hname⟩,
    join_ofNames hnames hname⟩

end IsNormal

end Lectern.Path
