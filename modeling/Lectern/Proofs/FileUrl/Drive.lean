import Lectern.Proofs.FileUrl.Reading

/-!
# Drives in URLs

Reading the URL of a path leads to the names of the path with its dots resolved, as long as no drive
is in the way: two dots do not take a drive back, and a drive with a bar at the start of a path gets
a colon. Where one of the two happens for the first time, the reader has a drive that it keeps from
there on, so what is read never comes back to the names of the path.

A path without two dots can only have a drive with a bar at its start in the way, so any other
normal path is read back. The only thing that may be new is a slash at its end, if it ends like a
drive.

## Main results

* `readNames_eq_iff`: the paths whose URLs lead to their own names.
* `not_meetsDrive`: a path without two dots that does not start with a drive is one of them.
* `roundTrips_iff_of_isNormal`: the normal paths that are read back from their URLs.
* `toPath?_of_isNormal`: a normal path that does not start with a drive has a URL of its own, which
  leads back to it, but for a slash at the end.
* `toPath?_finalDrive`: a path that gets this slash.
-/

namespace Lectern.FileUrl

open Lectern.Path (slash IsName ofNames Component normalizeStep)

variable {read normal names : List Bytes} {step : Component} {p : Path}

/-! ### Drives in the way -/

/-- The bar of a drive. -/
def bar : UInt8 := 0x7C

/-- Whether a **drive is in the way** of a step behind names, nearest first: two dots would take it
back, or it comes first and has a bar. -/
def DriveInWay (names : List Bytes) : Component → Prop
  | .root | .here => False
  | .up => ∃ last ∈ names.head?, IsDrive last
  | .name bytes => names = [] ∧ IsDrive bytes ∧ bar ∈ bytes

/-- Whether a path **meets a drive** that is in the way of one of its steps. -/
def MeetsDrive (p : Path) : Prop := ∃ before step after,
  Path.components p = before ++ step :: after ∧ DriveInWay (before.foldl normalizeStep []) step

/-- A drive with a colon is kept as it is. -/
theorem take_append_colon_iff {name : Bytes} (h : IsDrive name) :
    name.take 1 ++ Path.ofText [':'] = name ↔ bar ∉ name := by
  have hsigns : ∀ n : Fin 256,
      ((Char.ofNat (UInt8.ofFin n).toNat).isAlpha = true → bar ≠ UInt8.ofFin n) ∧
      (Char.ofNat (UInt8.ofFin n).toNat = ':' → UInt8.ofFin n = 0x3A) ∧
      (Char.ofNat (UInt8.ofFin n).toNat = '|' → UInt8.ofFin n = bar) := by
    decide +kernel
  have hcolon : Path.ofText [':'] = [0x3A] := by decide
  obtain ⟨letter, mark, hname, hletter, hmark⟩ := exists_of_isDrive h
  obtain ⟨first, rest, rfl, rfl, hrest⟩ := List.map_eq_cons_iff.1 hname
  obtain ⟨second, rfl, rfl⟩ := List.map_eq_singleton_iff.1 hrest
  have hfirst : bar ≠ first := (hsigns first.toFin).1 hletter
  rw [hcolon]
  rcases hmark with hmark | hmark
  · obtain rfl : second = 0x3A := (hsigns second.toFin).2.1 hmark
    simpa using ⟨hfirst, (by decide : bar ≠ 0x3A)⟩
  · obtain rfl : second = bar := (hsigns second.toFin).2.2 hmark
    simp [(by decide : (0x3A : UInt8) ≠ bar)]

/-- A drive is one with a colon, too. -/
theorem IsDrive.take_append_colon {name : Bytes} (h : IsDrive name) :
    IsDrive (name.take 1 ++ Path.ofText [':']) := by
  obtain ⟨letter, mark, hname, hletter, -⟩ := exists_of_isDrive h
  have hsigns : (name.take 1 ++ Path.ofText [':']).map (fun b => Char.ofNat b.toNat) =
      [letter, ':'] := by
    rw [List.map_append, List.map_take, hname]
    rfl
  rw [IsDrive, hsigns]
  simp [isDrive, hletter]

/-- **A step is read as it is** unless a drive is in its way. -/
theorem readStep_eq_iff : readStep names step = normalizeStep names step ↔
    ¬ DriveInWay names step := by
  cases step with
  | root | here => simp [readStep, normalizeStep, DriveInWay]
  | up =>
    cases names with
    | nil => simp [readStep, normalizeStep, DriveInWay, popName]
    | cons last before =>
      simp only [readStep, popName, normalizeStep, List.tail_cons, DriveInWay, List.head?_cons,
        Option.mem_def, Option.some.injEq, exists_eq_left']
      split
      · next h => simp [h]
      · next h => simp [h]
  | name bytes =>
    simp only [readStep, normalizeStep, List.cons.injEq, and_true, DriveInWay, keptName]
    by_cases h : names = [] ∧ IsDrive bytes
    · rw [if_pos h, take_append_colon_iff h.2]
      simp [h.1, h.2]
    · rw [if_neg h]
      simpa using fun hnames hdrive => absurd ⟨hnames, hdrive⟩ h

/-! ### Names that come apart -/

/-- How the names that are read and those of the path **have come apart**, nearest first: a drive
was not taken back, and there are more names behind it than there should be; or the first name is a
drive, and not the one that was written. -/
inductive Apart : List Bytes → List Bytes → Prop
  | longer (above below : List Bytes) {normal : List Bytes} {drive : Bytes} : IsDrive drive →
      normal.length ≤ above.length + below.length → Apart (above ++ drive :: below) normal
  | other (above : List Bytes) {drive written : Bytes} : IsDrive drive → drive ≠ written →
      Apart (above ++ [drive]) (above ++ [written])

/-- Names that have come apart are not the same. -/
theorem Apart.ne (h : Apart read normal) : read ≠ normal := by
  cases h with
  | longer above below hdrive hlength =>
    rintro rfl
    simp only [List.length_append, List.length_cons] at hlength
    omega
  | other above hdrive hne => simpa using hne

/-- **They stay apart** with each step. -/
theorem Apart.after (h : Apart read normal) (step : Component) :
    Apart (readStep read step) (normalizeStep normal step) := by
  cases step with
  | root | here => exact h
  | name bytes =>
    cases h with
    | @longer above below normal drive hdrive hlength =>
      have hkept : keptName (above ++ drive :: below) bytes = bytes := if_neg (by simp)
      rw [readStep, hkept]
      exact .longer (bytes :: above) below hdrive
        (by simp only [normalizeStep, List.length_cons]; omega)
    | @other above drive written hdrive hne =>
      have hkept : keptName (above ++ [drive]) bytes = bytes := if_neg (by simp)
      rw [readStep, hkept]
      exact .other (bytes :: above) hdrive hne
  | up =>
    cases h with
    | @longer above below normal drive hdrive hlength =>
      cases above with
      | nil =>
        have hkept : popName (drive :: below) = drive :: below := if_pos hdrive
        rw [List.nil_append, readStep, hkept]
        exact .longer [] below hdrive (by simp only [normalizeStep, List.length_tail]; omega)
      | cons last above =>
        rw [List.length_cons] at hlength
        rw [List.cons_append, readStep, popName, normalizeStep]
        split
        · refine .longer (last :: above) below hdrive ?_
          simp only [List.length_tail, List.length_cons]
          omega
        · refine .longer above below hdrive ?_
          rw [List.length_tail]
          omega
    | @other above drive written hdrive hne =>
      cases above with
      | nil =>
        have hkept : popName [drive] = [drive] := if_pos hdrive
        rw [List.nil_append, readStep, hkept]
        exact .longer [] [] hdrive (by simp [normalizeStep])
      | cons last above =>
        rw [List.cons_append, List.cons_append, readStep, popName, normalizeStep, List.tail_cons]
        split
        · next hlast =>
          exact .longer [] (above ++ [drive]) hlast (by simp)
        · exact .other above hdrive hne

/-- **They stay apart** on the whole way. -/
theorem Apart.foldl (h : Apart read normal) (steps : List Component) :
    Apart (steps.foldl readStep read) (steps.foldl normalizeStep normal) := by
  induction steps generalizing read normal with
  | nil => exact h
  | cons step steps ih => exact ih (h.after step)

/-- They come apart where a drive is in the way. -/
theorem apart_of_driveInWay (h : DriveInWay names step) :
    Apart (readStep names step) (normalizeStep names step) := by
  cases step with
  | root | here => exact h.elim
  | up =>
    obtain ⟨last, hlast, hdrive⟩ := h
    obtain ⟨before, rfl⟩ := List.head?_eq_some_iff.1 hlast
    have hkept : popName (last :: before) = last :: before := if_pos hdrive
    rw [readStep, hkept]
    exact .longer [] before hdrive (by simp [normalizeStep])
  | name bytes =>
    obtain ⟨rfl, hdrive, hbar⟩ := h
    have hkept : keptName [] bytes = bytes.take 1 ++ Path.ofText [':'] := if_pos ⟨rfl, hdrive⟩
    rw [readStep, hkept]
    exact .other [] hdrive.take_append_colon
      fun heq => (take_append_colon_iff hdrive).1 heq hbar

/-- **Steps lead to the same names** as they are read if and only if no drive is in their way. -/
theorem foldl_readStep_eq_iff {steps : List Component} :
    steps.foldl readStep names = steps.foldl normalizeStep names ↔
      ∀ before step after, steps = before ++ step :: after →
        ¬ DriveInWay (before.foldl normalizeStep names) step := by
  induction steps generalizing names with
  | nil => simp
  | cons step steps ih =>
    rw [List.foldl_cons, List.foldl_cons]
    by_cases hway : DriveInWay names step
    · have hapart := (apart_of_driveInWay hway).foldl steps
      exact ⟨fun heq => absurd heq hapart.ne, fun h => absurd hway (h [] step steps rfl)⟩
    · rw [readStep_eq_iff.2 hway, ih]
      constructor
      · rintro h (_ | ⟨first, before⟩) next after heq
        · obtain ⟨rfl, rfl⟩ := List.cons.inj heq
          exact hway
        · obtain ⟨rfl, rfl⟩ := List.cons.inj heq
          exact h before next after rfl
      · rintro h before next after rfl
        exact h (step :: before) next after rfl

/-- **The paths whose URLs lead to their own names**, with dots resolved, are those that meet no
drive. -/
theorem readNames_eq_iff : readNames p = Path.normalizedNames p ↔ ¬ MeetsDrive p := by
  rw [readNames, Path.normalizedNames, List.reverse_inj, foldl_readStep_eq_iff]
  simp only [MeetsDrive, not_exists, not_and]

/-! ### The characters of a URL -/

/-- **The URL of a path** is of the scheme of files, and names no host. -/
theorem prefix_of_ofPath? {url : Text} (h : ofPath? p = some url) : "file:///".toList <+: url := by
  obtain ⟨-, rfl⟩ := ofPath?_eq_some_iff.1 h
  have hslash : ['/'] <+: spelled p := by
    unfold spelled
    split
    · exact List.prefix_rfl
    · next hne =>
      obtain ⟨step, steps, hsteps⟩ := List.exists_cons_of_ne_nil hne
      rw [hsteps]
      exact ⟨encodeName step.bytes ++ steps.flatMap spell, rfl⟩
  exact (List.prefix_append_right_inj start).2 hslash

/-- **URLs of paths are printable**, and of ASCII. -/
theorem printable_of_ofPath? {url : Text} (h : ofPath? p = some url) {c : Char} (hc : c ∈ url) :
    0x20 < c.toNat ∧ c.toNat < 0x80 := by
  obtain ⟨-, rfl⟩ := ofPath?_eq_some_iff.1 h
  rcases List.mem_append.1 hc with hstart | hspelled
  · exact printable_of_mem_start hstart
  · unfold spelled at hspelled
    split at hspelled
    · obtain rfl := List.mem_singleton.1 hspelled
      decide
    · obtain ⟨step, -, hstep⟩ := List.mem_flatMap.1 hspelled
      rcases List.mem_cons.1 hstep with rfl | hname
      · decide
      · obtain ⟨b, -, hb⟩ := List.mem_flatMap.1 hname
        have hprintable := printable_of_mem_encodeByte hb
        omega

/-! ### Normal paths -/

/-- Whether a path **starts with a drive**: the first name behind its root is one. -/
def StartsWithDrive (p : Path) : Prop := ∃ name rest,
  Path.components p = .root :: .name name :: rest ∧ IsDrive name

/-- A path of names starts with a drive if its first name is one. -/
theorem startsWithDrive_ofNames_cons {name : Bytes} {names : List Bytes}
    (hnames : ∀ part ∈ name :: names, IsName part) :
    StartsWithDrive (ofNames true (name :: names)) ↔ IsDrive name := by
  rw [StartsWithDrive, Path.components_ofNames hnames]
  constructor
  · rintro ⟨first, rest, hfirst, hdrive⟩
    obtain ⟨heq, -⟩ := List.cons.inj (List.cons.inj hfirst).2
    rwa [Component.name.inj heq]
  · exact fun hdrive => ⟨name, names.map .name, rfl, hdrive⟩

/-- **A path without two dots** meets a drive only at its start. -/
theorem not_meetsDrive (habsolute : Path.isAbsolute p = true) (hup : .up ∉ Path.components p)
    (hdrive : ¬ StartsWithDrive p) : ¬ MeetsDrive p := by
  obtain ⟨steps, hcomponents, hsteps⟩ := exists_steps habsolute
  rintro ⟨before, step, after, hsplit, hway⟩
  cases step with
  | root | here => exact hway
  | up => exact hup (by simp [hsplit])
  | name bytes =>
    obtain ⟨hnone, hname, -⟩ := hway
    rw [hcomponents] at hsplit hup
    -- a step before the name would leave a name
    cases before with
    | nil => cases hsplit
    | cons first before =>
      rw [List.cons_append] at hsplit
      obtain ⟨rfl, rfl⟩ := List.cons.inj hsplit
      cases before with
      | nil => exact hdrive ⟨bytes, after, hcomponents, hname⟩
      | cons next before =>
        cases next with
        | root | here => exact hsteps _ List.mem_cons_self
        | up => exact hup (by simp)
        | name written =>
          have hbefore : .up ∉ before := fun hmem => hup (by simp [hmem])
          obtain ⟨below, hbelow⟩ := Path.exists_foldl_normalizeStep hbefore [written]
          have hleft : below ++ [written] = [] := hbelow.symm.trans hnone
          simp at hleft

/-- A normal path meets a drive only at its start. -/
theorem not_meetsDrive_of_isNormal (hnormal : p.IsNormal) (hdrive : ¬ StartsWithDrive p) :
    ¬ MeetsDrive p := by
  refine not_meetsDrive hnormal.isAbsolute ?_ hdrive
  obtain ⟨names, hnames, rfl⟩ := hnormal
  simp [Path.components_ofNames hnames]

/-- The URL of a normal path that meets no drive leads to the names of the path. -/
theorem ofNames_readNames (hnormal : p.IsNormal) (hdrive : ¬ MeetsDrive p) :
    ofNames true (readNames p) = p := by
  have hfixed := hnormal.normalize_eq
  rwa [Path.normalize, hnormal.isAbsolute, ← readNames_eq_iff.2 hdrive] at hfixed

/-- **A normal path that meets no drive** is what its URL is read as, with a slash at its end if it
ends like a drive. -/
theorem readBack_of_isNormal (hnormal : p.IsNormal) (hdrive : ¬ MeetsDrive p) :
    readBack p = closed p := by
  have hlast : (Path.components p).getLast? ≠ some Component.up := by
    obtain ⟨names, hisName, rfl⟩ := hnormal
    intro hup
    have hmem := List.mem_of_getLast? hup
    simp [Path.components_ofNames hisName] at hmem
  rw [readBack, if_neg hlast, ofNames_readNames hnormal hdrive]

/-- **The normal paths that are read back** from their URLs are those that meet no drive and do not
end like one. -/
theorem roundTrips_iff_of_isNormal (hnormal : p.IsNormal) :
    RoundTrips p ↔ ¬ MeetsDrive p ∧ ¬ EndsLikeDrive p := by
  have hurl := ofPath?_eq_some_iff.2 ⟨hnormal.isAbsolute, rfl⟩
  have hread : RoundTrips p ↔ readBack p = p := by
    rw [RoundTrips, hurl, Option.bind_some, toPath?_ofPath? hurl, Option.some.injEq]
  have hclosed : closed p = p ↔ ¬ EndsLikeDrive p := by
    unfold closed
    split <;> simp_all
  rw [hread]
  constructor
  · intro h
    have hdrive : ¬ MeetsDrive p := by
      refine readNames_eq_iff.1 ?_
      rw [← normalizedNames_readBack hnormal.isAbsolute, h]
    exact ⟨hdrive, hclosed.1 (readBack_of_isNormal hnormal hdrive ▸ h)⟩
  · rintro ⟨hdrive, hend⟩
    rw [readBack_of_isNormal hnormal hdrive, hclosed.2 hend]

/-- **Normal paths and their URLs.** A normal path that does not start with a drive has a URL, which
is ASCII and has no host. The URL is read as the path itself, with a slash at its end if the path
ends like a drive; so no two such paths have the same URL. -/
theorem toPath?_of_isNormal (hnormal : p.IsNormal) (hdrive : ¬ StartsWithDrive p) :
    ∃ url, ofPath? p = some url ∧ (∀ c ∈ url, c.toNat < 0x80) ∧ "file:///".toList <+: url ∧
      toPath? url = some (if EndsLikeDrive p then p ++ [slash] else p) ∧
      ∀ other : Path, other.IsNormal → ¬ StartsWithDrive other → ofPath? other = some url →
        other = p := by
  have hurl := ofPath?_eq_some_iff.2 ⟨hnormal.isAbsolute, rfl⟩
  have hread := toPath?_ofPath? hurl
  have hway := not_meetsDrive_of_isNormal hnormal hdrive
  refine ⟨_, hurl, ?_, ?_, ?_, fun other hother hotherDrive hsame => ?_⟩
  · exact fun c hc => (printable_of_ofPath? hurl hc).2
  · exact prefix_of_ofPath? hurl
  · rw [hread, readBack_of_isNormal hnormal hway, closed]
  · have hback : readBack other = readBack p :=
      Option.some.inj ((toPath?_ofPath? hsame).symm.trans hread)
    have hotherWay := not_meetsDrive_of_isNormal hother hotherDrive
    calc other
      _ = Path.normalize (readBack other) := by
          rw [normalize_readBack hother.isAbsolute, ofNames_readNames hother hotherWay]
      _ = Path.normalize (readBack p) := by rw [hback]
      _ = p := by rw [normalize_readBack hnormal.isAbsolute, ofNames_readNames hnormal hway]

/-- Names with signs that mean something else in a URL, and a drive that is not the first name. -/
theorem toPath?_of_isNormal_signs :
    let names := ["a b".toList, "%2e%2E".toList, "c|".toList, "λ?#\\".toList].map Path.ofText
    let p := ofNames true names
    p.IsNormal ∧ ¬ StartsWithDrive p ∧ ∃ url, ofPath? p = some url ∧ toPath? url = some p := by
  intro names p
  have hnames : ∀ name ∈ names, IsName name := by
    have hread : ∀ name ∈ names, slash ∉ name ∧ Component.ofSegment? name = some (.name name) := by
      decide +kernel
    exact fun name hmem => Path.isName_of_ofSegment? (hread name hmem).1 (hread name hmem).2
  have hnormal : p.IsNormal := ⟨names, hnames, rfl⟩
  have hdrive : ¬ StartsWithDrive p := fun h =>
    absurd ((startsWithDrive_ofNames_cons hnames).1 h) (by decide)
  obtain ⟨url, hurl, -, -, hread, -⟩ := toPath?_of_isNormal hnormal hdrive
  rw [if_neg (by decide +kernel)] at hread
  exact ⟨hnormal, hdrive, url, hurl, hread⟩

/-- The last name is longer than a drive, and ends like one: its URL is read as another path. -/
theorem toPath?_finalDrive :
    let p := ofNames true [Path.ofText "abc:".toList]
    p.IsNormal ∧ ¬ StartsWithDrive p ∧ ofPath? p = some "file:///abc:".toList ∧
      toPath? "file:///abc:".toList = some (p ++ [slash]) ∧ p ++ [slash] ≠ p := by
  intro p
  have hnames : ∀ name ∈ [Path.ofText "abc:".toList], IsName name :=
    List.forall_mem_singleton.2 ⟨by decide, by decide, by decide, by decide⟩
  have hdrive : ¬ StartsWithDrive p := fun h =>
    absurd ((startsWithDrive_ofNames_cons hnames).1 h) (by decide)
  exact ⟨⟨_, hnames, rfl⟩, hdrive, by decide +kernel, by decide +kernel, by decide +kernel⟩

end Lectern.FileUrl
