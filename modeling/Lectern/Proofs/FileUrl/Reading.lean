import Lectern.Proofs.FileUrl.Encoding
import Lectern.Proofs.Path.Parent
import Lectern.Proofs.Text.Utf8

/-!
# Reading the URLs of Paths Back

The URL of a path is read as a browser reads it, so what it gives is not always the path that was
written. Nothing in a spelled name ends the path, divides it or is dropped, and no spelled name is
taken for dots; but two dots are resolved, and a drive is kept apart: two dots do not take it back,
a bar in it becomes a colon if it comes first, and a path that ends like one gets a slash. The steps
of a path say all of this, so reading can be followed step by step on the path itself.

## Main results

* `dotted_encodeName`: no spelled name is taken for dots.
* `isAbsolute_of_toPath?`: URLs lead to absolute paths.
* `resolveDots_map`: how the segments of a URL are resolved, step by step.
* `toPath?_ofPath?`: what the URL of a path is read as.
* `normalize_readBack`: the names to which it leads are those of the path that is read.
-/

namespace Lectern.FileUrl

open Lectern.Path (slash dot IsName ofNames Component)
open Text (splitOnChar)

/-! ### Drives -/

/-- Whether a name is a **drive**: a Latin letter, and a colon or a bar. -/
def IsDrive (name : Bytes) : Prop := isDrive (name.map fun b => Char.ofNat b.toNat) = true

instance (name : Bytes) : Decidable (IsDrive name) := inferInstanceAs (Decidable (_ = _))

/-- The parts of a drive. -/
theorem exists_of_isDrive {s : Text} (h : isDrive s = true) : ∃ letter mark, s = [letter, mark] ∧
    letter.isAlpha = true ∧ (mark = ':' ∨ mark = '|') := by
  unfold isDrive at h
  split at h
  · next letter mark => exact ⟨letter, mark, rfl, by simpa using h⟩
  · cases h

/-- A name of plain bytes is spelled as it is. -/
theorem encodeName_of_isPlain {name : Bytes} (h : ∀ b ∈ name, isPlain b = true) :
    encodeName name = name.map fun b => Char.ofNat b.toNat := by
  induction name with
  | nil => rfl
  | cons b name ih =>
    obtain ⟨hb, hname⟩ := List.forall_mem_cons.1 h
    rw [encodeName, List.flatMap_cons, ← encodeName, ih hname, encodeByte, if_pos hb]
    rfl

/-- The signs of drives are plain. -/
theorem isPlain_of_driveSign {b : UInt8} (h : (Char.ofNat b.toNat).isAlpha = true ∨
    Char.ofNat b.toNat = ':' ∨ Char.ofNat b.toNat = '|') : isPlain b = true := by
  have hall : ∀ n : Fin 256, ((Char.ofNat (UInt8.ofFin n).toNat).isAlpha = true ∨
      Char.ofNat (UInt8.ofFin n).toNat = ':' ∨ Char.ofNat (UInt8.ofFin n).toNat = '|') →
      isPlain (UInt8.ofFin n) = true := by
    decide +kernel
  exact hall b.toFin h

/-- A drive has two plain bytes. -/
theorem IsDrive.isPlain {name : Bytes} (h : IsDrive name) : ∀ b ∈ name, isPlain b = true := by
  obtain ⟨letter, mark, hname, hletter, hmark⟩ := exists_of_isDrive h
  intro b hb
  have hsign : Char.ofNat b.toNat ∈ [letter, mark] := hname ▸ List.mem_map_of_mem hb
  rcases List.mem_pair.1 hsign with rfl | rfl
  · exact isPlain_of_driveSign (.inl hletter)
  · exact isPlain_of_driveSign (.inr hmark)

/-- A character of ASCII is one byte. -/
theorem map_encodeChar_of_lt {c : Char} (h : c.toNat < 0x80) :
    (Text.encodeChar c).map (fun b => Char.ofNat b.toNat) = [c] := by
  have hbyte : (UInt8.ofNat c.toNat).toNat = c.toNat :=
    UInt8.toNat_ofNat_of_lt' (show c.toNat < 256 by omega)
  simp [Text.encodeChar, h, hbyte]

/-- A Latin letter is a character of ASCII. -/
theorem lt_of_isAlpha {c : Char} (h : c.isAlpha = true) : c.toNat < 0x80 := by
  have hle : c.val ≤ 'z'.val := by
    rcases Bool.or_eq_true_iff.1 h with hupper | hlower
    · have hrange : c.val ≥ 'A'.val ∧ c.val ≤ 'Z'.val := of_decide_eq_true hupper
      exact UInt32.le_trans hrange.2 (by decide)
    · exact of_decide_eq_true (Bool.and_eq_true_iff.1 hlower).2
  exact Nat.lt_of_le_of_lt (UInt32.le_iff_toNat_le.1 hle) (by decide)

/-- **A drive is spelled as it is**, and no other name is spelled like one. -/
theorem isDrive_encodeName {name : Bytes} : isDrive (encodeName name) = true ↔ IsDrive name := by
  constructor
  · intro h
    obtain ⟨letter, mark, hspelled, hletter, hmark⟩ := exists_of_isDrive h
    have hname : name = Text.encodeChar letter ++ Text.encodeChar mark := by
      rw [← decodeName_encodeName name, hspelled]
      simp [decodeName]
    have hlow : letter.toNat < 0x80 := lt_of_isAlpha hletter
    have hsign : mark.toNat < 0x80 := by rcases hmark with rfl | rfl <;> decide
    rw [IsDrive, hname, List.map_append, map_encodeChar_of_lt hlow, map_encodeChar_of_lt hsign,
      List.singleton_append, ← hspelled]
    exact h
  · intro h
    rwa [encodeName_of_isPlain h.isPlain]

/-! ### Spelled names in URLs -/

/-- No character in the spelling of a byte divides a path or ends it. -/
theorem inPath_of_mem_encodeByte {b : UInt8} {c : Char} (h : c ∈ encodeByte b) :
    isSeparator c = false ∧ endsPath c = false := by
  have hall : ∀ n : Fin 256, (encodeByte (UInt8.ofFin n)).all fun c =>
      !isSeparator c && !endsPath c := by
    decide +kernel
  simpa using List.all_eq_true.1 (hall b.toFin) c h

/-- What does not start with a percent sign is not taken for a dot. -/
theorem dotted_cons {c : Char} (h : c ≠ '%') (rest : Text) :
    dotted (c :: rest) = c :: dotted rest := by
  rw [dotted]
  all_goals
    rintro _ rfl
    exact absurd rfl h

/-- The spelling of a byte is not taken for a dot, unless it is one. -/
theorem dotted_encodeByte_append (b : UInt8) (rest : Text) :
    dotted (encodeByte b ++ rest) = encodeByte b ++ dotted rest := by
  rcases encodeByte_cases b with ⟨c, hspelled, hpercent, -⟩ |
    ⟨high, low, hspelled, hhigh, hlow, hvalue⟩
  · rw [hspelled, List.singleton_append, dotted_cons hpercent, List.singleton_append]
  · -- two digits that stand for a dot are no spelling, since a dot is spelled as it is
    have hdot : ¬ (high = '2' ∧ (low = 'e' ∨ low = 'E')) := by
      rintro ⟨rfl, rfl | rfl⟩ <;> subst hvalue <;> exact absurd hspelled (by decide)
    have hdigit : ∀ c, Text.isHexDigit c = true → c ≠ '%' := by
      rintro c hc rfl
      exact absurd hc (by decide)
    have hsign : dotted ('%' :: high :: low :: rest) = '%' :: dotted (high :: low :: rest) := by
      rw [dotted]
      all_goals
        rintro _ - heq
        simp only [List.cons.injEq] at heq
        exact hdot ⟨heq.1, by simp [heq.2.1]⟩
    rw [hspelled]
    simp only [List.cons_append, List.nil_append, hsign, dotted_cons (hdigit high hhigh),
      dotted_cons (hdigit low hlow)]

/-- **A spelled name is taken for dots** only if the name is dots. -/
theorem dotted_encodeName (name : Bytes) : dotted (encodeName name) = encodeName name := by
  induction name with
  | nil => rfl
  | cons b name ih =>
    rw [encodeName, List.flatMap_cons, dotted_encodeByte_append]
    exact congrArg (encodeByte b ++ ·) ih

/-- The segments of a URL without backslashes are its pieces between slashes. -/
theorem pathSegments_eq_splitOnChar {s : Text} (h : '\\' ∉ s) :
    pathSegments s = splitOnChar '/' s := by
  induction s with
  | nil => rfl
  | cons c s ih =>
    obtain ⟨hc, hs⟩ : c ≠ '\\' ∧ '\\' ∉ s := by simpa [eq_comm] using h
    have hseparator : isSeparator c = true ↔ c = '/' := by simp [isSeparator, hc]
    obtain ⟨piece, more, hpieces⟩ := List.exists_cons_of_ne_nil (Text.splitOnChar_ne_nil '/' s)
    simp only [pathSegments, splitOnChar, hseparator, ih hs, hpieces]

/-- No character in the spelling of steps ends the path, is dropped or is a backslash. -/
theorem inPath_of_mem_flatMap_spell {steps : List Component} {c : Char}
    (h : c ∈ steps.flatMap spell) : c ≠ '\\' ∧ endsPath c = false ∧ 0x20 < c.toNat := by
  obtain ⟨step, -, hstep⟩ := List.mem_flatMap.1 h
  rcases List.mem_cons.1 hstep with rfl | hname
  · decide
  · obtain ⟨b, -, hb⟩ := List.mem_flatMap.1 hname
    obtain ⟨hseparator, hend⟩ := inPath_of_mem_encodeByte hb
    refine ⟨?_, hend, (printable_of_mem_encodeByte hb).1⟩
    rintro rfl
    exact absurd hseparator (by decide)

/-- The segments of steps as a URL spells them. -/
theorem pathSegments_flatMap_spell (steps : List Component) :
    pathSegments (steps.flatMap spell) = [] :: steps.map fun step => encodeName step.bytes := by
  have hsplit := splitOnChar_append_flatMap [] (steps.map Component.bytes)
  rw [List.flatMap_map, List.map_map] at hsplit
  rw [pathSegments_eq_splitOnChar fun hmem => (inPath_of_mem_flatMap_spell hmem).1 rfl]
  exact hsplit

/-! ### The whole URL -/

/-- A URL of printable characters is all counted. -/
theorem clean_eq_self {url : Text} (h : ∀ c ∈ url, 0x20 < c.toNat) : clean url = url := by
  have hedge : ∀ c ∈ url, isEdge c = false := fun c hc => by simpa [isEdge] using h c hc
  have hstart : ∀ s : Text, (∀ c ∈ s, isEdge c = false) → s.dropWhile isEdge = s := by
    intro s hs
    rw [List.dropWhile_eq_self_iff]
    exact fun hlength => by simpa using hs _ (List.getElem_mem hlength)
  have hreverse : ∀ c ∈ url.reverse, isEdge c = false := fun c hc => hedge c (List.mem_reverse.1 hc)
  rw [clean, hstart url hedge, hstart _ hreverse, List.reverse_reverse, List.filter_eq_self]
  intro c hc
  have hprintable := h c hc
  simp only [Bool.and_eq_true, bne_iff_ne]
  refine ⟨⟨?_, ?_⟩, ?_⟩ <;> rintro rfl <;> revert hprintable <;> decide

/-- The start of the URL of a path is printable, and of ASCII. -/
theorem printable_of_mem_start {c : Char} (h : c ∈ start) : 0x20 < c.toNat ∧ c.toNat < 0x80 := by
  have hall : start.all fun c => decide (0x20 < c.toNat ∧ c.toNat < 0x80) := by decide
  exact of_decide_eq_true (List.all_eq_true.1 hall c h)

/-- **The URL of steps** is read as its segments, with dots resolved. -/
theorem toPath?_start_append {steps : List Component} (hne : steps ≠ []) :
    toPath? (start ++ steps.flatMap spell) =
      some (ofRawSegments (steps.map fun step => encodeName step.bytes)) := by
  have hclean : clean (start ++ steps.flatMap spell) = start ++ steps.flatMap spell :=
    clean_eq_self fun c hc => by
      rcases List.mem_append.1 hc with hstart | hsteps
      · exact (printable_of_mem_start hstart).1
      · exact (inPath_of_mem_flatMap_spell hsteps).2.2
  have hscheme : afterScheme? (start ++ steps.flatMap spell) =
      some ('/' :: '/' :: steps.flatMap spell) := by
    have hfile : ((start ++ steps.flatMap spell).take 5).map lowerLetter = "file:".toList := rfl
    rw [afterScheme?, if_pos hfile]
    rfl
  have hpath : ('/' :: '/' :: steps.flatMap spell).takeWhile (!endsPath ·) =
      '/' :: '/' :: steps.flatMap spell := by
    have hkept : ∀ c ∈ steps.flatMap spell, (!endsPath c) = true := fun c hc => by
      rw [(inPath_of_mem_flatMap_spell hc).2.1]
      rfl
    exact List.takeWhile_eq_self_iff.2
      (List.forall_mem_cons.2 ⟨rfl, List.forall_mem_cons.2 ⟨rfl, hkept⟩⟩)
  have hhost : (steps.flatMap spell).takeWhile (fun c => !isSeparator c) = [] := by
    obtain ⟨step, steps, rfl⟩ := List.exists_cons_of_ne_nil hne
    rfl
  have hslash : isSeparator '/' = true := rfl
  simp only [toPath?, hclean, hscheme, Option.bind_eq_bind, Option.bind_some, hpath, hslash,
    Bool.and_self, if_true, afterSlashes?, hhost, List.length_nil, List.drop_zero,
    pathSegments_flatMap_spell, List.drop_succ_cons]
  rfl

/-- A path of segments is absolute. -/
theorem isAbsolute_ofSegments (segments : List Text) :
    Path.isAbsolute (ofSegments segments) = true := by
  unfold ofSegments
  cases segments.dropWhile List.isEmpty with
  | nil => rfl
  | cons first named =>
    dsimp only
    split <;> rfl

/-- **What a URL leads to** is an absolute path. -/
theorem isAbsolute_of_toPath? {url : Text} {p : Path} (h : toPath? url = some p) :
    Path.isAbsolute p = true := by
  obtain ⟨rest, -, hpath⟩ := Option.bind_eq_some_iff.1 h
  have hsome : ∀ segments, some (ofRawSegments segments) = some p → Path.isAbsolute p = true := by
    rintro segments ⟨⟩
    exact isAbsolute_ofSegments _
  split at hpath
  · split at hpath
    · simp only [afterSlashes?] at hpath
      split at hpath
      · exact hsome _ hpath
      · split at hpath
        · obtain rfl := Option.some.inj hpath
          exact isAbsolute_ofSegments _
        · cases hpath
    · split at hpath <;> exact hsome _ hpath
  · exact hsome _ hpath
  · exact hsome _ hpath

/-! ### Reading step by step -/

/-- The names that are left when two dots take one back, nearest first. A drive stays. -/
def popName : List Bytes → List Bytes
  | [] => []
  | last :: before => if IsDrive last then last :: before else before

/-- A name as it is kept behind others. The first one gets a colon if it is a drive. -/
def keptName (names : List Bytes) (name : Bytes) : Bytes :=
  if names = [] ∧ IsDrive name then name.take 1 ++ Path.ofText [':'] else name

/-- **A step of a path, as its URL is read**: what it makes of the names before it, nearest
first. -/
def readStep (names : List Bytes) : Component → List Bytes
  | .root | .here => names
  | .up => popName names
  | .name bytes => keptName names bytes :: names

/-- The **names to which the URL of a path leads**. -/
def readNames (p : Path) : List Bytes := ((Path.components p).foldl readStep []).reverse

/-- Whether a path **ends like a drive**, and has more before that than its first slash. -/
def EndsLikeDrive (p : Path) : Prop := 2 < p.length ∧ IsDrive (p.drop (p.length - 2))

instance (p : Path) : Decidable (EndsLikeDrive p) := inferInstanceAs (Decidable (_ ∧ _))

/-- A path as it is given from a URL: with a slash at its end if it ends like a drive. -/
def closed (p : Path) : Path := if EndsLikeDrive p then p ++ [slash] else p

/-- **What the URL of a path is read as.** The names to which it leads; and a slash at the end
behind two dots. -/
def readBack (p : Path) : Path :=
  if (Path.components p).getLast? = some .up then Path.join (ofNames true (readNames p)) []
  else closed (ofNames true (readNames p))

/-- Taking back a segment takes back a name. -/
theorem popSegment_map (names : List Bytes) :
    popSegment (names.map encodeName) = (popName names).map encodeName := by
  cases names with
  | nil => rfl
  | cons last before =>
    simp only [List.map_cons, popSegment, isDrive_encodeName, popName]
    split <;> rfl

/-- Keeping a segment keeps a name. -/
theorem keepSegment_map (names : List Bytes) (name : Bytes) :
    keepSegment (names.map encodeName) (encodeName name) = encodeName (keptName names name) := by
  have hcondition : ((names.map encodeName).isEmpty && isDrive (encodeName name)) = true ↔
      names = [] ∧ IsDrive name := by
    rw [Bool.and_eq_true, List.isEmpty_iff, List.map_eq_nil_iff, isDrive_encodeName]
  simp only [keepSegment, hcondition, keptName]
  split
  · next h =>
    have hplain := h.2.isPlain
    have hfirst : ∀ b ∈ name.take 1, isPlain b = true := fun b hb =>
      hplain b (List.mem_of_mem_take hb)
    rw [encodeName_append, encodeName_of_isPlain hplain, encodeName_of_isPlain hfirst,
      List.map_take]
    rfl
  · rfl

/-- Whether a component is a **step** on the way from a directory: two dots, or a name. -/
def IsStep : Component → Prop
  | .root | .here => False
  | .up => True
  | .name bytes => IsName bytes

/-- **The segments of steps, with dots resolved**, are the names that are read, and an empty one
behind two dots. Induction on the steps; `names` are those before them. -/
theorem resolveDots_map {steps : List Component} (hsteps : ∀ step ∈ steps, IsStep step)
    (names : List Bytes) :
    resolveDots (names.map encodeName) (steps.map fun step => encodeName step.bytes) =
      ((steps.foldl readStep names).reverse ++
        if steps.getLast? = some Component.up then [[]] else []).map encodeName := by
  induction steps generalizing names with
  | nil => simp [resolveDots]
  | cons step steps ih =>
    obtain ⟨hstep, hrest⟩ := List.forall_mem_cons.1 hsteps
    simp only [List.map_cons, resolveDots, dotted_encodeName, List.foldl_cons]
    cases step with
    | root | here => exact hstep.elim
    | up =>
      have hdots : encodeName (Component.up).bytes = ['.', '.'] := by decide
      rw [if_pos hdots, popSegment_map]
      cases steps with
      | nil => simp [readStep, encodeName]
      | cons next steps => simpa [readStep] using ih hrest (popName names)
    | name name =>
      have hname : IsName name := hstep
      have hdots : encodeName name ≠ ['.', '.'] := fun h =>
        hname.ne_dots (encodeName_inj (h.trans (by decide : _ = encodeName [dot, dot])))
      have hdot : encodeName name ≠ ['.'] := fun h =>
        hname.ne_dot (encodeName_inj (h.trans (by decide : _ = encodeName [dot])))
      rw [Component.bytes, if_neg hdots, if_neg hdot, keepSegment_map]
      have hlast : (Component.name name :: steps).getLast? = some Component.up ↔
          steps.getLast? = some Component.up := by
        cases steps <;> simp
      simpa only [hlast, List.map_cons, readStep] using ih hrest (keptName names name :: names)

/-- The components of an absolute path are its root and steps. -/
theorem exists_steps {p : Path} (h : Path.isAbsolute p = true) :
    ∃ steps, Path.components p = .root :: steps ∧ ∀ step ∈ steps, IsStep step := by
  obtain ⟨rest, rfl⟩ := Path.isAbsolute_iff.1 h
  refine ⟨_, Path.components_slash_cons rest, fun step hstep => ?_⟩
  obtain ⟨segment, hmem, hsegment⟩ := List.mem_filterMap.1 hstep
  cases step with
  | root | here =>
    unfold Component.ofSegment? at hsegment
    split at hsegment
    · cases hsegment
    · split at hsegment
      · cases hsegment
      · split at hsegment <;> cases hsegment
  | up => trivial
  | name name => exact Path.isName_of_ofSegment? (Path.slash_not_mem_of_mem_segments hmem) hsegment

/-- A drive with a colon is a name. -/
theorem isName_keptName {name : Bytes} (h : IsName name) (names : List Bytes) :
    IsName (keptName names name) := by
  unfold keptName
  split
  · obtain ⟨b, name, rfl⟩ := List.exists_cons_of_ne_nil h.ne_nil
    have hb : slash ≠ b := fun heq => h.slash_not_mem (heq ▸ List.mem_cons_self)
    have hcolon : Path.ofText [':'] = [0x3A] := by decide
    rw [hcolon]
    exact ⟨by simp, by simp, by simp [dot], by simpa using ⟨hb, by decide⟩⟩
  · exact h

/-- What is left of names are names before. -/
theorem popName_suffix (names : List Bytes) : popName names <:+ names := by
  cases names with
  | nil => exact List.suffix_rfl
  | cons last before =>
    rw [popName]
    split
    · exact List.suffix_rfl
    · exact List.suffix_cons last before

/-- The names that are read from steps are names. -/
theorem isName_of_mem_foldl_readStep {steps : List Component} (hsteps : ∀ step ∈ steps, IsStep step)
    {names : List Bytes} (hnames : ∀ name ∈ names, IsName name) :
    ∀ name ∈ steps.foldl readStep names, IsName name := by
  induction steps generalizing names with
  | nil => exact hnames
  | cons step steps ih =>
    obtain ⟨hstep, hrest⟩ := List.forall_mem_cons.1 hsteps
    refine ih hrest fun name hmem => ?_
    cases step with
    | root | here => exact hstep.elim
    | up => exact hnames name ((popName_suffix names).subset hmem)
    | name written =>
      rcases List.mem_cons.1 hmem with rfl | hmem
      · exact isName_keptName hstep names
      · exact hnames name hmem

/-- The names to which the URL of an absolute path leads are names. -/
theorem isName_of_mem_readNames {p : Path} (h : Path.isAbsolute p = true) :
    ∀ name ∈ readNames p, IsName name := by
  obtain ⟨steps, hcomponents, hsteps⟩ := exists_steps h
  intro name hmem
  rw [readNames, hcomponents, List.mem_reverse] at hmem
  exact isName_of_mem_foldl_readStep hsteps (List.forall_mem_nil _) name hmem

/-- A path that ends with a slash does not end like a drive. -/
theorem closed_concat_slash (p : Path) : closed (p ++ [slash]) = p ++ [slash] := by
  refine if_neg fun ⟨hlength, hdrive⟩ => ?_
  obtain ⟨letter, mark, htail, -, hmark⟩ := exists_of_isDrive hdrive
  have hlast := congrArg List.getLast? htail
  rw [List.getLast?_map, List.getLast?_drop, if_neg (by omega), List.getLast?_concat] at hlast
  obtain rfl : '/' = mark := Option.some.inj hlast
  exact absurd hmark (by decide)

/-- A path of names with a slash at its end. -/
theorem join_nil_ofNames {names : List Bytes} (hne : names ≠ [])
    (hnames : ∀ name ∈ names, IsName name) :
    Path.join (ofNames true names) [] = ofNames true names ++ [slash] := by
  obtain ⟨before, last, rfl⟩ := names.eq_nil_or_concat'.resolve_left hne
  have hend := Path.getLast?_ofNames_concat (hnames last (by simp)) before
  have hrelative : Path.isAbsolute [] = false := rfl
  have hnonempty : ofNames true (before ++ [last]) ≠ [] := by simp [ofNames]
  rw [Path.join, hrelative, if_neg (by simp), if_neg (by simp [hnonempty, hend])]

/-- The path of encoded segments, of which the first is not empty. -/
theorem ofSegments_map {parts : List Bytes} (hfirst : parts.head? ≠ some []) :
    ofSegments (parts.map encodeName) = closed (ofNames true parts) := by
  cases parts with
  | nil => rfl
  | cons first parts =>
    have hspelled : (encodeName first).isEmpty = false := by
      refine List.isEmpty_eq_false_iff.2 fun hempty => hfirst ?_
      rw [encodeName_inj (hempty.trans (by rfl : _ = encodeName []))]
      rfl
    have hdrop : (encodeName first :: parts.map encodeName).dropWhile List.isEmpty =
        encodeName first :: parts.map encodeName := by
      rw [List.dropWhile_cons_of_neg (by simp [hspelled])]
    have hbytes : (encodeName first :: parts.map encodeName).flatMap
        (fun segment => slash :: decodeName segment) = ofNames true (first :: parts) := by
      rw [← Path.flatMap_slash (by simp), ← List.map_cons, List.flatMap_map]
      simp only [decodeName_encodeName]
    have hdrive : ∀ bytes : Bytes, (decide (2 < bytes.length) && isDrive
        ((bytes.drop (bytes.length - 2)).map fun b => Char.ofNat b.toNat)) = true ↔
        EndsLikeDrive bytes := fun bytes => by simp [EndsLikeDrive, IsDrive]
    simp only [ofSegments, List.map_cons, hdrop, hbytes, hdrive, closed]

/-- **What the URL of a path is read as.** -/
theorem toPath?_ofPath? {p : Path} {url : Text} (h : ofPath? p = some url) :
    toPath? url = some (readBack p) := by
  obtain ⟨habsolute, rfl⟩ := ofPath?_eq_some_iff.1 h
  obtain ⟨steps, hcomponents, hsteps⟩ := exists_steps habsolute
  have hnames := isName_of_mem_readNames habsolute
  have hread : (steps.foldl readStep []).reverse = readNames p := by
    rw [readNames, hcomponents]
    rfl
  cases steps with
  | nil =>
    have hspelled : spelled p = ['/'] := by simp [spelled, hcomponents]
    have hroot : readBack p = [slash] := by
      rw [readBack, ← hread, hcomponents]
      rfl
    rw [hspelled, hroot]
    decide
  | cons step steps =>
    have hspelled : spelled p = (step :: steps).flatMap spell := by simp [spelled, hcomponents]
    have hlast : (Path.components p).getLast? = (step :: steps).getLast? := by
      rw [hcomponents, List.getLast?_cons_cons]
    have hdots := resolveDots_map hsteps []
    rw [hspelled, toPath?_start_append (List.cons_ne_nil _ _), ofRawSegments, readBack, hlast]
    rw [List.map_nil, hread] at hdots
    rw [hdots]
    have hfirst : readNames p ≠ [] → ∀ more, (readNames p ++ more).head? ≠ some [] := by
      intro hne more hhead
      rw [List.head?_append_of_ne_nil _ hne] at hhead
      exact (hnames [] (List.mem_of_mem_head? hhead)).ne_nil rfl
    split
    · by_cases hne : readNames p = []
      · rw [hne]
        rfl
      · rw [ofSegments_map (hfirst hne _), Path.ofNames_concat hne, closed_concat_slash,
          join_nil_ofNames hne hnames]
    · by_cases hne : readNames p = []
      · rw [hne]
        rfl
      · rw [ofSegments_map (hfirst hne _), List.append_nil]

/-! ### The path that is read -/

/-- What is read is an absolute path. -/
theorem isAbsolute_readBack (p : Path) : Path.isAbsolute (readBack p) = true := by
  have hroot := Path.isAbsolute_ofNames (readNames p)
  unfold readBack closed
  split
  · exact Path.isAbsolute_join hroot []
  · split
    · obtain ⟨rest, hrest⟩ := Path.isAbsolute_iff.1 hroot
      exact Path.isAbsolute_iff.2 ⟨rest ++ [slash], by rw [hrest, List.cons_append]⟩
    · exact hroot

/-- **The components of what is read** are the names to which the URL leads. -/
theorem components_readBack {p : Path} (h : Path.isAbsolute p = true) :
    Path.components (readBack p) = .root :: (readNames p).map .name := by
  have hnames := Path.components_ofNames (isName_of_mem_readNames h)
  have hne : ofNames true (readNames p) ≠ [] := by simp [ofNames]
  have hnothing : (Path.segments []).filterMap Component.ofSegment? = [] := rfl
  unfold readBack closed
  split
  · rw [Path.components_join hne rfl, hnothing, hnames, List.append_nil]
  · split
    · rw [Path.components_append_slash hne, hnothing, hnames, List.append_nil]
    · exact hnames

/-- What is left of what is read when dots are resolved are the names that are read. -/
theorem normalizedNames_readBack {p : Path} (h : Path.isAbsolute p = true) :
    Path.normalizedNames (readBack p) = readNames p := by
  rw [Path.normalizedNames, components_readBack h, List.foldl_cons, Path.foldl_normalizeStep_names]
  simp [Path.normalizeStep]

/-- **What is read, without dots and final slashes**, is the path of the names that are read. -/
theorem normalize_readBack {p : Path} (h : Path.isAbsolute p = true) :
    Path.normalize (readBack p) = ofNames true (readNames p) := by
  rw [Path.normalize, isAbsolute_readBack, normalizedNames_readBack h]

end Lectern.FileUrl
