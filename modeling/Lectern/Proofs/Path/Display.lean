import Lectern.Proofs.Path.Normal
import Lectern.Proofs.Text.Utf8

/-!
# Paths as They are Shown

A path that is not text is shown with replacement characters. They never stand for a slash or for a
dot, so what is shown has the steps of the path, with the same meaning; and it is the path itself
only if the path is text.

## Main results

* `splitOnChar_display`: the steps of what is shown are the segments, each as it is shown.
* `components_shown`: its components are those of the path, as they are shown.
* `isSome_decode?_of_components`: a path with the components that are shown is text.
-/

namespace Lectern.Text

/-! ### Pieces -/

section Pieces

variable {α β : Type} [DecidableEq α] [DecidableEq β] {f : α → List β} {a : α} {b : β}

/-- The pieces of a list behind a part without separators. -/
theorem splitOn_append_of_not_mem {s : List α} (h : a ∉ s) (t : List α) :
    (s ++ t).splitOn a = (t.splitOn a).modifyHead (s ++ ·) := by
  induction s with
  | nil => exact (congrFun List.modifyHead_id _).symm
  | cons c s ih =>
    obtain ⟨hc, hs⟩ : a ≠ c ∧ a ∉ s := by simpa using h
    rw [List.cons_append, List.splitOn_cons_eq_if_modifyHead, if_neg (by simpa using Ne.symm hc),
      ih hs, List.modifyHead_modifyHead]
    rfl

/-- **Pieces are kept** when each element is rewritten and the separator alone gives the new
separator. -/
theorem splitOn_flatMap (hseparator : f a = [b]) (hother : ∀ c, c ≠ a → b ∉ f c) (s : List α) :
    (s.flatMap f).splitOn b = (s.splitOn a).map (·.flatMap f) := by
  induction s with
  | nil => rfl
  | cons c s ih =>
    rw [List.flatMap_cons, List.splitOn_cons_eq_if_modifyHead]
    by_cases hc : c = a
    · rw [hc, hseparator, List.singleton_append, List.splitOn_cons_eq_if_modifyHead]
      simp [ih]
    · rw [splitOn_append_of_not_mem (hother c hc), ih, if_neg (by simpa using hc)]
      obtain ⟨piece, more, hpieces⟩ := List.exists_cons_of_ne_nil (List.splitOn_ne_nil a s)
      simp [hpieces]

end Pieces

variable {bytes : Bytes} {s : Text}

/-- The pieces of a text are those of its list. -/
theorem splitOnChar_eq_splitOn (sep : Char) (s : Text) :
    splitOnChar sep s = s.splitOn sep := by
  induction s with
  | nil => rfl
  | cons c s ih =>
    obtain ⟨piece, more, hpieces⟩ := List.exists_cons_of_ne_nil (List.splitOn_ne_nil sep s)
    by_cases hc : c = sep <;>
      simp [splitOnChar, List.splitOn_cons_eq_if_modifyHead, ih, hpieces, hc]

/-- No byte of another character is a slash. -/
theorem slash_not_mem_encodeChar {c : Char} (h : c ≠ '/') : Path.slash ∉ encodeChar c := by
  have hbyte : ∀ n, n < 256 → n ≠ 0x2F → Path.slash ≠ UInt8.ofNat n := by
    intro n hn hne heq
    have hnat := congrArg UInt8.toNat heq
    rw [UInt8.toNat_ofNat_of_lt' hn] at hnat
    exact hne hnat.symm
  have hlast : ∀ n, Path.slash ≠ continuationByte n := fun n => hbyte _ (by omega) (by omega)
  have hc : c.toNat ≠ 0x2F := fun heq => h (by rw [← Char.ofNat_toNat c, heq])
  have hvalid : c.toNat < 0xD800 ∨ 0xDFFF < c.toNat ∧ c.toNat < 0x110000 := c.valid
  simp only [encodeChar]
  split
  · simpa only [List.mem_singleton] using hbyte _ (by omega) hc
  · split
    · simpa only [List.mem_cons, List.not_mem_nil, or_false, not_or] using
        ⟨hbyte _ (by omega) (by omega), hlast _⟩
    · split
      · simpa only [List.mem_cons, List.not_mem_nil, or_false, not_or] using
          ⟨hbyte _ (by omega) (by omega), hlast _, hlast _⟩
      · simpa only [List.mem_cons, List.not_mem_nil, or_false, not_or] using
          ⟨hbyte _ (by omega) (by omega), hlast _, hlast _, hlast _⟩

/-- Without slashes there are none among the bytes. -/
theorem slash_not_mem_encode (h : '/' ∉ s) : Path.slash ∉ encode s := by
  intro hmem
  obtain ⟨c, hc, hbyte⟩ := List.mem_flatMap.1 hmem
  exact slash_not_mem_encodeChar (fun heq => h (heq ▸ hc)) hbyte

/-! ### Slashes among bytes -/

/-- A slash ends what is read as a character, as the end of the bytes does. -/
theorem continueChar_append_slash {bits low high more taken : Nat} (hlow : 0x80 ≤ low)
    (rest tail : Bytes) : continueChar bits low high more taken (rest ++ Path.slash :: tail) =
      continueChar bits low high more taken rest := by
  induction more generalizing bits low high taken rest with
  | zero => rfl
  | succ more ih =>
    cases rest with
    | nil =>
      have hslash : ¬ low ≤ Path.slash.toNat := by
        rw [show Path.slash.toNat = 0x2F from rfl]
        omega
      simp [continueChar, hslash]
    | cons byte rest =>
      simp only [List.cons_append, continueChar]
      split
      · exact ih (Nat.le_refl _) rest
      · rfl

/-- No more bytes are read than there are. -/
theorem continueChar_snd_le {bits low high more taken : Nat} (rest : Bytes) :
    (continueChar bits low high more taken rest).2 ≤ taken + rest.length := by
  induction more generalizing bits low high taken rest with
  | zero => simp [continueChar]
  | succ more ih =>
    cases rest with
    | nil => simp [continueChar]
    | cons byte rest =>
      simp only [continueChar, List.length_cons]
      split
      · exact Nat.le_trans (ih rest) (by omega)
      · exact Nat.le_add_right _ _

/-- The characters around a slash are read apart. -/
theorem decodeParts_append_slash {covered : Nat} {front : Bytes} (hcovered : covered ≤ front.length)
    (back : Bytes) : decodeParts covered (front ++ Path.slash :: back) =
      decodeParts covered front ++ some '/' :: decodeParts 0 back := by
  induction front generalizing covered with
  | nil =>
    obtain rfl := Nat.le_zero.1 hcovered
    rfl
  | cons byte front ih =>
    cases covered with
    | succ covered => exact ih (Nat.le_of_succ_le_succ hcovered)
    | zero =>
      rw [List.cons_append, decodeParts, decodeParts]
      cases hlead : lead? byte with
      | none => simp [ih (Nat.zero_le _)]
      | some lead =>
        have htaken := @continueChar_snd_le lead.bits lead.low lead.high lead.more 0 front
        rw [Nat.zero_add] at htaken
        simp only [continueChar_append_slash (bounds_of_lead? hlead).1, ih htaken, List.cons_append]

/-- What is shown of bytes around a slash. -/
theorem decodeLossy_append_slash (front back : Bytes) :
    decodeLossy (front ++ Path.slash :: back) = decodeLossy front ++ '/' :: decodeLossy back := by
  rw [decodeLossy, decodeParts_append_slash (Nat.zero_le _)]
  simp [decodeLossy]

/-- The bytes of a character that is read are among those that are. -/
theorem encodeChar_subset_of_mem_decodeParts {covered : Nat} {c : Char}
    (h : some c ∈ decodeParts covered bytes) : encodeChar c ⊆ bytes := by
  induction bytes generalizing covered with
  | nil => cases covered <;> cases h
  | cons byte bytes ih =>
    cases covered with
    | succ covered => exact List.subset_cons_of_subset _ (ih h)
    | zero =>
      rw [decodeParts] at h
      cases hlead : lead? byte with
      | none =>
        simp only [hlead, List.mem_cons, reduceCtorEq, false_or] at h
        exact List.subset_cons_of_subset _ (ih h)
      | some lead =>
        simp only [hlead, List.mem_cons] at h
        rcases h with hfirst | h
        · obtain ⟨n, unread, rfl, -, rfl, hbits, hrange⟩ := exists_of_continueChar
            (bounds_of_lead? hlead).1 (bounds_of_lead? hlead).2 (Prod.ext hfirst.symm rfl)
          rw [encodeChar_ofNat hlead hbits hrange]
          exact List.cons_subset_cons _ (List.subset_append_left _ _)
        · exact List.subset_cons_of_subset _ (ih h)

/-- No slash is shown that is not there. -/
theorem slash_not_mem_decodeLossy (h : Path.slash ∉ bytes) : '/' ∉ decodeLossy bytes := by
  intro hmem
  obtain ⟨part, hpart, hslash⟩ := List.mem_map.1 hmem
  cases part with
  | none => exact absurd hslash (by decide)
  | some c =>
    obtain rfl : c = '/' := hslash
    exact h (encodeChar_subset_of_mem_decodeParts hpart (by decide))

/-- What is shown without replacement characters is the text itself. -/
theorem encode_decodeLossy_eq_iff (hs : '\uFFFD' ∉ s) :
    encode (decodeLossy bytes) = encode s ↔ bytes = encode s := by
  constructor
  · intro h
    have hshown : (decodeParts 0 bytes).map (·.getD '\uFFFD') = s := encode_inj h
    have hparts : ∀ part ∈ decodeParts 0 bytes, some (part.getD '\uFFFD') = part := by
      intro part hpart
      cases part with
      | some c => rfl
      | none => exact absurd (hshown ▸ List.mem_map_of_mem hpart) hs
    refine eq_encode_of_decodeParts ?_
    rw [← hshown, List.map_map]
    exact ((List.map_congr_left hparts).trans (List.map_id' _)).symm
  · rintro rfl
    rw [decodeLossy_encode]

end Lectern.Text

namespace Lectern.Path

variable {p : Path} {segment : Bytes}

/-! ### Steps -/

/-- A segment **as it is shown**. -/
def shown (segment : Bytes) : Bytes := Text.encode (display segment)

/-- **The segments** of the path with the bytes of a text. -/
theorem segments_encode (s : Text) :
    segments (Text.encode s) = (Text.splitOnChar '/' s).map Text.encode := by
  rw [segments_eq_splitOn, Text.splitOnChar_eq_splitOn]
  exact @Text.splitOn_flatMap Char UInt8 _ _ _ '/' slash rfl
    (fun c hc => Text.slash_not_mem_encodeChar hc) s

/-- **The steps** of what is shown are the segments, as they are shown. -/
theorem splitOnChar_display (p : Path) :
    Text.splitOnChar '/' (display p) = (segments p).map display := by
  by_cases hslash : slash ∈ p
  · obtain ⟨front, back, rfl⟩ := List.append_of_mem hslash
    have hfront := splitOnChar_display front
    have hback := splitOnChar_display back
    rw [Text.splitOnChar_eq_splitOn] at hfront hback ⊢
    simp only [display] at hfront hback ⊢
    rw [Text.decodeLossy_append_slash, List.splitOn_append_cons_self, hfront, hback]
    rw [segments_eq_splitOn, segments_eq_splitOn, segments_eq_splitOn,
      List.splitOn_append_cons_self, List.map_append]
  · have hdisplay : '/' ∉ display p := Text.slash_not_mem_decodeLossy hslash
    rw [Text.splitOnChar_eq_splitOn, segments_eq_splitOn, List.splitOn_eq_singleton hdisplay,
      List.splitOn_eq_singleton hslash]
    rfl
termination_by p.length

/-- The segments of what is shown. -/
theorem segments_shown (p : Path) : segments (shown p) = (segments p).map shown := by
  rw [shown, segments_encode, splitOnChar_display, List.map_map]
  rfl

/-- A slash at the start of a path is shown. -/
theorem display_slash_cons (p : Path) : display (slash :: p) = '/' :: display p :=
  Text.decodeLossy_append_slash [] p

/-- A component **as it is shown**. -/
def Component.shown : Component → Component
  | .name bytes => .name (Path.shown bytes)
  | component => component

/-- A segment that is no name is shown as it is. -/
theorem shown_eq_iff : (shown segment = [] ↔ segment = []) ∧
    (shown segment = [dot] ↔ segment = [dot]) ∧
    (shown segment = [dot, dot] ↔ segment = [dot, dot]) :=
  ⟨@Text.encode_decodeLossy_eq_iff segment [] (by decide),
    @Text.encode_decodeLossy_eq_iff segment ['.'] (by decide),
    @Text.encode_decodeLossy_eq_iff segment ['.', '.'] (by decide)⟩

/-- The step that a shown segment stands for. -/
theorem ofSegment?_shown (segment : Bytes) :
    Component.ofSegment? (shown segment) = (Component.ofSegment? segment).map .shown := by
  obtain ⟨hempty, hdot, hdots⟩ := @shown_eq_iff segment
  unfold Component.ofSegment?
  simp only [hempty, hdot, hdots]
  split
  · rfl
  · split
    · rfl
    · split <;> rfl

/-- **The components** of what is shown. -/
theorem components_shown (p : Path) : components (shown p) = (components p).map .shown := by
  obtain ⟨first, rest, hfirst⟩ : ∃ first rest, segments p = first :: rest :=
    List.exists_cons_of_ne_nil (by rw [segments_eq_splitOn]; exact List.splitOn_ne_nil _ _)
  have hrest : (rest.map shown).filterMap Component.ofSegment? =
      (rest.filterMap Component.ofSegment?).map .shown := by
    rw [List.filterMap_map, List.map_filterMap]
    exact List.filterMap_congr fun segment _ => ofSegment?_shown segment
  obtain ⟨hempty, hdot, -⟩ := @shown_eq_iff first
  simp only [components, segments_shown, hfirst, List.map_cons, hempty, hdot,
    (@shown_eq_iff p).1, hrest, List.map_append, ofSegment?_shown]
  congr 1
  split
  · split <;> rfl
  · split
    · rfl
    · cases Component.ofSegment? first <;> rfl

/-- **A path is text** if its components are those that are shown. -/
theorem isSome_decode?_of_components (h : components (shown p) = components p) :
    (Text.decode? p).isSome = true := by
  have hkept : ∀ component ∈ components p, component.shown = component := by
    rw [components_shown] at h
    exact List.map_inj_left.1 (h.trans (List.map_id' _).symm)
  have hsegment : ∀ segment ∈ segments p, shown segment = segment := by
    intro segment hmem
    obtain ⟨hempty, hdot, hdots⟩ := @shown_eq_iff segment
    by_cases h1 : segment = []
    · rw [hempty.2 h1, h1]
    by_cases h2 : segment = [dot]
    · rw [hdot.2 h2, h2]
    by_cases h3 : segment = [dot, dot]
    · rw [hdots.2 h3, h3]
    have hname : Component.ofSegment? segment = some (.name segment) := by
      simp [Component.ofSegment?, h1, h2, h3]
    have hcomponent : .name segment ∈ components p := by
      obtain ⟨first, rest, hfirst⟩ := List.exists_cons_of_ne_nil (List.ne_nil_of_mem hmem)
      simp only [components, hfirst]
      rw [hfirst] at hmem
      rcases List.mem_cons.1 hmem with rfl | hrest
      · simp [h1, h2, hname]
      · exact List.mem_append_right _ (List.mem_filterMap.2 ⟨segment, hrest, hname⟩)
    exact Component.name.inj (hkept _ hcomponent)
  -- the path is made of its segments
  have hsegments : segments (shown p) = segments p := by
    rw [segments_shown]
    exact (List.map_congr_left hsegment).trans (List.map_id' _)
  have hpath : shown p = p := by
    rw [segments_eq_splitOn, segments_eq_splitOn] at hsegments
    have hjoined := congrArg ([slash].intercalate ·) hsegments
    simpa only [List.intercalate_splitOn] using hjoined
  rw [← hpath, shown, Text.decode?_eq_some_iff.2 rfl]
  rfl

end Lectern.Path
