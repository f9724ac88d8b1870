/-
# Which paths have a configured extension

Whether a path is that of a script file depends on the last name on it, and of that name on what
stands behind its last dot.  Both are described here without cutting anything: `EndsIn` says which
name a path ends in, slashes and single dots behind it aside, and `HasSuffix` says what its suffix
is.  They are what the path is cut into (`suffix?_eq_some_iff`), and with them the test
for a script file is a statement about the path as it is written (`isScriptPath_iff`).

An extension that holds a dot or a slash is the suffix of no path.  A configuration may list such an
extension, for only a dot at its beginning is refused, but then the extension has no effect
(`effect_of_valid_extension`).
-/
import DialogueScript.Proofs.File.Walk
import DialogueScript.Proofs.Text.LetterCase
import DialogueScript.Proofs.Text.Pieces

namespace DialogueScript

variable {path path' name suffix : List UInt8}

/-! ### The last name -/

/-- What may stand behind the last name of a path: slashes, each with at most one dot behind it. -/
inductive IdleEnd : List UInt8 → Prop
  | nil : IdleEnd []
  | slash {rest} : IdleEnd rest → IdleEnd (slashByte :: rest)
  | dot {rest} : IdleEnd rest → IdleEnd (slashByte :: dotByte :: rest)

/-- The last component of a path is `name`, up to components that name nothing. -/
def EndsIn (path name : List UInt8) : Prop :=
  ∃ before idle, path = before ++ (name ++ idle) ∧
    (before = [] ∨ before.getLast? = some slashByte) ∧ IdleEnd idle ∧
    slashByte ∉ name ∧ name ≠ [] ∧ name ≠ [dotByte]

/-- The components of a path that name something. -/
def components (path : List UInt8) : List (List UInt8) :=
  (path.splitOn slashByte).filter fun component => ! isIdle component

theorem isIdle_iff {component : List UInt8} :
    isIdle component = true ↔ component = [] ∨ component = [dotByte] := by
  simp [isIdle]

theorem components_append_slash (front back : List UInt8) :
    components (front ++ slashByte :: back) = components front ++ components back := by
  rw [components, List.splitOn_append_cons_self, List.filter_append]
  rfl

theorem IdleEnd.components_append {idle : List UInt8} (h : IdleEnd idle) (path : List UInt8) :
    components (path ++ idle) = components path := by
  induction h generalizing path with
  | nil => rw [List.append_nil]
  | @slash rest _ ih =>
    have hrest : components rest = [] := ih []
    rw [components_append_slash, hrest, List.append_nil]
  | @dot rest _ ih =>
    have hrest : components (dotByte :: rest) = [] := ih [dotByte]
    rw [components_append_slash, hrest, List.append_nil]

theorem EndsIn.components_eq (h : EndsIn path name) :
    ∃ above, components path = above ++ [name] := by
  obtain ⟨before, idle, rfl, hbefore, hidle, hslash, hne, hdot⟩ := h
  have hname : components name = [name] := by
    have hkept : isIdle name = false := by simp [Bool.eq_false_iff, isIdle_iff, hne, hdot]
    rw [components, List.splitOn_eq_singleton hslash, List.filter_cons_of_pos (by rw [hkept]; rfl)]
    rfl
  rcases hbefore with rfl | hbefore
  · exact ⟨[], by rw [List.nil_append, hidle.components_append, hname]; rfl⟩
  · obtain ⟨front, rfl⟩ := List.getLast?_eq_some_iff.mp hbefore
    refine ⟨components front, ?_⟩
    rw [List.append_assoc, List.singleton_append, components_append_slash,
      hidle.components_append, hname]

/-- Pieces joined by slashes, one of which is singled out. -/
theorem exists_intercalate_eq (front back : List (List UInt8)) (name : List UInt8) :
    ∃ before, [slashByte].intercalate (front ++ name :: back)
        = before ++ (name ++ back.flatMap (slashByte :: ·)) ∧
      (before = [] ∨ before.getLast? = some slashByte) := by
  induction front with
  | nil =>
    refine ⟨[], ?_, .inl rfl⟩
    rw [List.nil_append, List.nil_append]
    induction back generalizing name with
    | nil => simp
    | cons next back ih =>
      rw [List.intercalate_cons_cons, ih next, List.flatMap_cons]
      simp
  | cons piece front ih =>
    obtain ⟨before, hjoined, hbefore⟩ := ih
    refine ⟨piece ++ slashByte :: before, ?_, .inr ?_⟩
    · obtain ⟨next, pieces, hpieces⟩ : ∃ next pieces, front ++ name :: back = next :: pieces :=
        List.exists_cons_of_ne_nil (by simp)
      rw [List.cons_append, hpieces, List.intercalate_cons_cons, ← hpieces, hjoined]
      simp
    · rcases hbefore with rfl | hbefore
      · simp
      · simp [hbefore, List.getLast?_cons]

theorem idleEnd_flatMap {pieces : List (List UInt8)}
    (h : ∀ piece ∈ pieces, isIdle piece = true) :
    IdleEnd (pieces.flatMap (slashByte :: ·)) := by
  induction pieces with
  | nil => exact .nil
  | cons piece pieces ih =>
    obtain ⟨hpiece, hpieces⟩ := List.forall_mem_cons.mp h
    rcases isIdle_iff.mp hpiece with rfl | rfl
    · exact .slash (ih hpieces)
    · exact .dot (ih hpieces)

theorem endsIn_of_components {above : List (List UInt8)}
    (h : components path = above ++ [name]) : EndsIn path name := by
  obtain ⟨first, last, hpieces, -, hlast⟩ := List.filter_eq_append_iff.mp h
  obtain ⟨front, back, rfl, -, hname, hback⟩ := List.filter_eq_cons_iff.mp hlast
  have hidle : ∀ piece ∈ back, isIdle piece = true := by
    intro piece hpiece
    simpa using List.filter_eq_nil_iff.mp hback piece hpiece
  obtain ⟨before, hjoined, hbefore⟩ := exists_intercalate_eq (first ++ front) back name
  rw [List.append_assoc, ← hpieces, List.intercalate_splitOn] at hjoined
  have hmem : name ∈ path.splitOn slashByte := by simp [hpieces]
  have hkept : ¬ (name = [] ∨ name = [dotByte]) := by
    rw [← isIdle_iff]
    simpa using hname
  obtain ⟨hne, hdot⟩ := not_or.mp hkept
  exact ⟨before, _, hjoined, hbefore, idleEnd_flatMap hidle, not_mem_of_mem_splitOn hmem, hne, hdot⟩

theorem lastName?_eq_bind (path : List UInt8) :
    lastName? path = (components path).getLast?.bind fun name =>
      if name = [dotByte, dotByte] then none else some name := by
  rw [lastName?, ← components]
  cases (components path).getLast? <;> rfl

theorem EndsIn.lastName?_eq (h : EndsIn path name) :
    lastName? path = if name = [dotByte, dotByte] then none else some name := by
  obtain ⟨above, habove⟩ := h.components_eq
  rw [lastName?_eq_bind, habove, List.getLast?_concat, Option.bind_some]

/-- **The last name of a path** is the one that it ends in, if that is a name. -/
theorem lastName?_eq_some_iff :
    lastName? path = some name ↔ EndsIn path name ∧ name ≠ [dotByte, dotByte] := by
  constructor
  · intro h
    rw [lastName?_eq_bind] at h
    obtain ⟨last, hget, hname⟩ := Option.bind_eq_some_iff.mp h
    split at hname
    · cases hname
    · next hparent =>
      obtain rfl := Option.some.inj hname
      obtain ⟨above, habove⟩ := List.getLast?_eq_some_iff.mp hget
      exact ⟨endsIn_of_components habove, hparent⟩
  · rintro ⟨hends, hparent⟩
    rw [hends.lastName?_eq, if_neg hparent]

/-! ### The suffix of a name -/

theorem suffixOfName?_append {stem : List UInt8} (hstem : stem ≠ []) (hdot : dotByte ∉ suffix) :
    suffixOfName? (stem ++ dotByte :: suffix) = some suffix := by
  have hcut : (stem ++ dotByte :: suffix).splitOn dotByte = stem.splitOn dotByte ++ [suffix] := by
    rw [List.splitOn_append_cons_self, List.splitOn_eq_singleton hdot]
  rw [suffixOfName?, hcut]
  split
  · next heq =>
    have hlength := congrArg List.length heq
    rw [List.length_append, length_splitOn] at hlength
    cases Nat.succ.inj hlength
  · next last heq =>
    have hsplit : stem.splitOn dotByte ++ [suffix] = [[]] ++ [last] := heq
    obtain ⟨hempty, -⟩ := List.append_inj' hsplit rfl
    have hjoined : [dotByte].intercalate (stem.splitOn dotByte) = stem :=
      List.intercalate_splitOn dotByte
    rw [hempty] at hjoined
    exact absurd hjoined.symm hstem
  · rw [List.getLast?_concat]

theorem suffixOfName?_of_not_mem (h : dotByte ∉ name) : suffixOfName? name = none := by
  rw [suffixOfName?, List.splitOn_eq_singleton h]

theorem suffixOfName?_dot (hdot : dotByte ∉ suffix) :
    suffixOfName? (dotByte :: suffix) = none := by
  have hcut : (dotByte :: suffix).splitOn dotByte = [[], suffix] := by
    rw [← List.nil_append (dotByte :: suffix), List.splitOn_append_cons_self,
      List.splitOn_eq_singleton hdot]
    rfl
  rw [suffixOfName?, hcut]

/-- **The suffix of a name** stands behind its last dot, which is not its first byte. -/
theorem suffixOfName?_eq_some_iff :
    suffixOfName? name = some suffix ↔
      ∃ stem, name = stem ++ dotByte :: suffix ∧ stem ≠ [] ∧ dotByte ∉ suffix := by
  constructor
  · intro h
    have hmem : dotByte ∈ name := by
      by_contra hdot
      rw [suffixOfName?_of_not_mem hdot] at h
      cases h
    -- the last dot is the first one from behind
    obtain ⟨behind, before, hreverse, hdot⟩ :=
      List.eq_append_cons_of_mem (List.mem_reverse.mpr hmem)
    obtain rfl : name = before.reverse ++ dotByte :: behind.reverse := by
      rw [← List.reverse_reverse name, hreverse]
      simp
    have hdot' : dotByte ∉ behind.reverse := mt List.mem_reverse.mp hdot
    by_cases hstem : before.reverse = []
    · rw [hstem, List.nil_append, suffixOfName?_dot hdot'] at h
      cases h
    · rw [suffixOfName?_append hstem hdot'] at h
      obtain rfl := Option.some.inj h
      exact ⟨before.reverse, rfl, hstem, hdot'⟩
  · rintro ⟨stem, rfl, hstem, hdot⟩
    exact suffixOfName?_append hstem hdot

/-! ### The suffix of a path -/

/-- The suffix of a path: what stands behind the last dot of its last name.  A name has none if its
only dot is its first byte, and `..` is no name. -/
def HasSuffix (path suffix : List UInt8) : Prop :=
  ∃ stem, EndsIn path (stem ++ dotByte :: suffix) ∧ stem ≠ [] ∧ dotByte ∉ suffix ∧
    stem ++ dotByte :: suffix ≠ [dotByte, dotByte]

/-- **A path is cut into what it ends in.** -/
theorem suffix?_eq_some_iff :
    (lastName? path).bind suffixOfName? = some suffix ↔ HasSuffix path suffix := by
  rw [Option.bind_eq_some_iff]
  constructor
  · rintro ⟨name, hname, hsuffix⟩
    obtain ⟨hends, hparent⟩ := lastName?_eq_some_iff.mp hname
    obtain ⟨stem, rfl, hstem, hdot⟩ := suffixOfName?_eq_some_iff.mp hsuffix
    exact ⟨stem, hends, hstem, hdot, hparent⟩
  · rintro ⟨stem, hends, hstem, hdot, hparent⟩
    exact ⟨_, lastName?_eq_some_iff.mpr ⟨hends, hparent⟩, suffixOfName?_append hstem hdot⟩

theorem suffixText?_eq_some_iff {s : String} :
    suffixText? path = some s ↔ HasSuffix path (utf8 s) := by
  rw [suffixText?, Option.bind_eq_some_iff]
  constructor
  · rintro ⟨suffix, hsuffix, htext⟩
    rw [← ofUtf8?_eq_some_iff.mp htext]
    exact suffix?_eq_some_iff.mp hsuffix
  · exact fun h => ⟨_, suffix?_eq_some_iff.mpr h, ofUtf8?_eq_some_iff.mpr rfl⟩

/-- A path has one suffix at most. -/
theorem HasSuffix.unique {suffix' : List UInt8} (h : HasSuffix path suffix)
    (h' : HasSuffix path suffix') : suffix = suffix' :=
  Option.some.inj ((suffix?_eq_some_iff.mpr h).symm.trans (suffix?_eq_some_iff.mpr h'))

/-- There is neither a dot nor a slash in a suffix. -/
theorem HasSuffix.not_mem (h : HasSuffix path suffix) :
    dotByte ∉ suffix ∧ slashByte ∉ suffix := by
  obtain ⟨stem, ⟨before, idle, -, -, -, hslash, -⟩, -, hdot, -⟩ := h
  exact ⟨hdot, fun hmem => hslash (List.mem_append_right _ (List.mem_cons_of_mem _ hmem))⟩

/-! #### Paths that agree apart from case -/

theorem IdleEnd.lt_of_mem {idle : List UInt8} (h : IdleEnd idle) :
    ∀ b ∈ idle, b.toNat < 0x41 := by
  induction h with
  | nil => simp
  | slash _ ih => exact List.forall_mem_cons.mpr ⟨by decide, ih⟩
  | dot _ ih =>
    exact List.forall_mem_cons.mpr ⟨by decide, List.forall_mem_cons.mpr ⟨by decide, ih⟩⟩

/-- Paths that agree end in names that agree. -/
theorem EndsIn.of_sameBytes (h : EndsIn path name) (hsame : SameBytes path path') :
    ∃ name', EndsIn path' name' ∧ SameBytes name name' := by
  obtain ⟨before, idle, rfl, hbefore, hidle, hslash, hne, hdot⟩ := h
  obtain ⟨before', behind', rfl, hbefore', hbehind⟩ := exists_append_of_sameBytes hsame
  obtain ⟨name', idle', rfl, hname, hidle'⟩ := exists_append_of_sameBytes hbehind
  obtain rfl := hidle'.eq fun b hb => .inl (hidle.lt_of_mem b hb)
  -- marks are no letters, so they stand in both paths
  refine ⟨name', ⟨before', idle, rfl, ?_, hidle, mt (hname.symm.mem (by decide)) hslash, ?_, ?_⟩,
    hname⟩
  · rcases hbefore with rfl | hbefore
    · exact .inl (List.forall₂_nil_left_iff.mp hbefore')
    · obtain ⟨front, rfl⟩ := List.getLast?_eq_some_iff.mp hbefore
      obtain ⟨front', last', rfl, -, hlast⟩ := exists_append_of_sameBytes hbefore'
      rw [← hlast.eq (by simp [slashByte])]
      exact .inr List.getLast?_concat
  · rintro rfl
    exact hne (List.forall₂_nil_right_iff.mp hname)
  · rintro rfl
    exact hdot (hname.symm.eq (by simp [dotByte])).symm

/-- Paths that agree have suffixes that agree. -/
theorem HasSuffix.of_sameBytes (h : HasSuffix path suffix) (hsame : SameBytes path path') :
    ∃ suffix', HasSuffix path' suffix' ∧ SameBytes suffix suffix' := by
  obtain ⟨stem, hends, hstem, hdot, hparent⟩ := h
  obtain ⟨name', hends', hname⟩ := hends.of_sameBytes hsame
  obtain ⟨stem', tail', rfl, hstem', htail⟩ := exists_append_of_sameBytes hname
  obtain ⟨dot, suffix', hbyte, hsuffix, rfl⟩ := List.forall₂_cons_left_iff.mp htail
  obtain rfl : dotByte = dot := UInt8.toNat_inj.mp (hbyte.eq_of_not_letter (.inl (by decide)))
  have hsuffix : SameBytes suffix suffix' := hsuffix
  refine ⟨suffix', ⟨stem', hends', ?_, mt (hsuffix.symm.mem (by decide)) hdot, fun heq => ?_⟩,
    hsuffix⟩
  · rintro rfl
    exact hstem (List.forall₂_nil_right_iff.mp hstem')
  · rw [heq] at hname
    exact hparent (hname.symm.eq (by simp [dotByte])).symm

/-! ### Script files -/

/-- The configuration with other extensions. -/
def Configuration.withExtensions (config : Configuration) (extensions : List String) :
    Configuration :=
  { config with extensions }

/-- Each extension of one list is one of the other, apart from case. -/
def SameExtensions (list list' : List String) : Prop :=
  (∀ ext ∈ list, ∃ ext' ∈ list', SameText ext ext') ∧
    ∀ ext' ∈ list', ∃ ext ∈ list, SameText ext ext'

variable {config : Configuration}

/-- **A path is that of a script file** exactly if its suffix is an extension, apart from case. -/
theorem isScriptPath_iff :
    config.isScriptPath path = true ↔
      ∃ s ext, HasSuffix path (utf8 s) ∧ ext ∈ config.extensions ∧ SameText ext s := by
  rw [Configuration.isScriptPath]
  constructor
  · intro h
    split at h
    · next s hs =>
      obtain ⟨ext, hext, hsame⟩ := List.any_eq_true.mp h
      exact ⟨s, ext, suffixText?_eq_some_iff.mp hs, hext, equalIgnoringAsciiCase_iff.mp hsame⟩
    · cases h
  · rintro ⟨s, ext, hs, hext, hsame⟩
    rw [suffixText?_eq_some_iff.mpr hs]
    exact List.any_eq_true.mpr ⟨ext, hext, equalIgnoringAsciiCase_iff.mpr hsame⟩

theorem isScriptPath_of_sameBytes (h : config.isScriptPath path = true)
    (hsame : SameBytes path path') : config.isScriptPath path' = true := by
  obtain ⟨s, ext, hs, hext, htext⟩ := isScriptPath_iff.mp h
  obtain ⟨suffix', hsuffix', hbytes⟩ := hs.of_sameBytes hsame
  obtain ⟨s', rfl, hs'⟩ := exists_utf8_eq hbytes
  exact isScriptPath_iff.mpr ⟨s', ext, hsuffix', hext, htext.trans hs'⟩

/-- More extensions, or the same ones in another case, lose no script file. -/
theorem isScriptPath_of_forall_exists {config' : Configuration}
    (h : config.isScriptPath path = true)
    (hlist : ∀ ext ∈ config.extensions, ∃ ext' ∈ config'.extensions, SameText ext ext') :
    config'.isScriptPath path = true := by
  obtain ⟨s, ext, hs, hext, htext⟩ := isScriptPath_iff.mp h
  obtain ⟨ext', hext', hsame⟩ := hlist ext hext
  exact isScriptPath_iff.mpr ⟨s, ext', hs, hext', hsame.symm.trans htext⟩

/-- Each extension is looked for on its own. -/
theorem isScriptPath_eq_any (config : Configuration) (path : List UInt8) :
    config.isScriptPath path =
      config.extensions.any fun ext => (config.withExtensions [ext]).isScriptPath path := by
  rw [Bool.eq_iff_iff, List.any_eq_true]
  constructor
  · intro h
    obtain ⟨s, ext, hs, hext, hsame⟩ := isScriptPath_iff.mp h
    exact ⟨ext, hext, isScriptPath_iff.mpr ⟨s, ext, hs, List.mem_singleton_self ext, hsame⟩⟩
  · rintro ⟨ext, hext, h⟩
    refine isScriptPath_of_forall_exists h fun ext' hext' => ?_
    obtain rfl := List.mem_singleton.mp hext'
    exact ⟨ext', hext, .refl ext'⟩

/-- **The last suffix decides.**  A path is that of a script file exactly if the last name on it has a
suffix that is valid text and one of the extensions, up to the case of ASCII letters.  What stands
before the last name and behind it does not matter, nor does the case of letters in the path; nor do
the order of the extensions, their case or how often each is listed, and they do not depend on each
other.  A character that is no ASCII letter is told apart from every other. -/
theorem isScriptPath_bySuffix (config : Configuration) (path : List UInt8) :
    (config.isScriptPath path = true ↔
      ∃ s ext, HasSuffix path (utf8 s) ∧ ext ∈ config.extensions ∧ SameText ext s) ∧
    (∀ name, EndsIn path name → config.isScriptPath path = config.isScriptPath name) ∧
    (∀ path', SameBytes path path' → config.isScriptPath path' = config.isScriptPath path) ∧
    (∀ list, SameExtensions config.extensions list →
      (config.withExtensions list).isScriptPath path = config.isScriptPath path) ∧
    (config.isScriptPath path =
      config.extensions.any fun ext => (config.withExtensions [ext]).isScriptPath path) ∧
    (∀ before after before' after' : List Char, ∀ c d : Char, before.length = before'.length →
      c ≠ d → 0x80 ≤ c.toNat ∨ 0x80 ≤ d.toNat →
      HasSuffix path (utf8 (String.ofList (before' ++ d :: after'))) →
      (config.withExtensions [String.ofList (before ++ c :: after)]).isScriptPath path = false) := by
  refine ⟨isScriptPath_iff, fun name hname => ?_, fun path' hsame => ?_, fun list hlist => ?_,
    isScriptPath_eq_any config path,
    fun before after before' after' c d hlength hne hlarge hsuffix => ?_⟩
  · have hself : EndsIn name name := by
      obtain ⟨-, -, -, -, -, hslash, hne, hdot⟩ := hname
      exact ⟨[], [], by simp, .inl rfl, .nil, hslash, hne, hdot⟩
    rw [Configuration.isScriptPath, Configuration.isScriptPath, suffixText?, suffixText?,
      hname.lastName?_eq, hself.lastName?_eq]
  · exact Bool.eq_iff_iff.mpr
      ⟨fun h => isScriptPath_of_sameBytes h hsame.symm, fun h => isScriptPath_of_sameBytes h hsame⟩
  · refine Bool.eq_iff_iff.mpr ⟨fun h => ?_, fun h => isScriptPath_of_forall_exists h hlist.1⟩
    refine isScriptPath_of_forall_exists h fun ext' hext' => ?_
    obtain ⟨ext, hext, hsame⟩ := hlist.2 ext' hext'
    exact ⟨ext, hext, hsame.symm⟩
  · rw [Bool.eq_false_iff]
    intro h
    obtain ⟨s, ext, hs, hext, hsame⟩ := isScriptPath_iff.mp h
    obtain rfl := List.mem_singleton.mp hext
    obtain rfl := utf8_inj.mp (hs.unique hsuffix)
    have hsmall := hsame.lt_of_ne hlength hne
    omega

/-- The small letter is found, slashes aside; the capital one is another suffix. -/
theorem isScriptPath_bySuffix_umlaut :
    HasSuffix (utf8 "a.b//c.ä/./") (utf8 "ä") ∧
      (Configuration.standard.withExtensions ["ä"]).isScriptPath (utf8 "a.b//c.ä/./") = true ∧
      (Configuration.standard.withExtensions ["Ä"]).isScriptPath (utf8 "a.b//c.ä/./") = false := by
  have hsuffix : HasSuffix (utf8 "a.b//c.ä/./") (utf8 "ä") :=
    suffixText?_eq_some_iff.mp (by decide +kernel)
  obtain ⟨hfound, -⟩ := isScriptPath_bySuffix (Configuration.standard.withExtensions ["ä"])
    (utf8 "a.b//c.ä/./")
  obtain ⟨-, -, -, -, -, hother⟩ := isScriptPath_bySuffix Configuration.standard
    (utf8 "a.b//c.ä/./")
  exact ⟨hsuffix, hfound.mpr ⟨"ä", "ä", hsuffix, List.mem_singleton_self _, .refl _⟩,
    hother [] [] [] [] 'Ä' 'ä' rfl (by decide) (.inl (by decide)) hsuffix⟩

/-! ### Extensions without effect -/

theorem dotByte_mem_utf8_iff {s : String} : dotByte ∈ utf8 s ↔ '.' ∈ s.toList :=
  ofNat_toNat_mem_utf8_iff (c := '.') (by decide)

theorem slashByte_mem_utf8_iff {s : String} : slashByte ∈ utf8 s ↔ '/' ∈ s.toList :=
  ofNat_toNat_mem_utf8_iff (c := '/') (by decide)

/-- A text that can be the suffix of a path: it holds neither a dot nor a slash. -/
def CanBeSuffix (ext : String) : Prop :=
  '.' ∉ ext.toList ∧ '/' ∉ ext.toList

instance : DecidablePred CanBeSuffix := fun ext =>
  inferInstanceAs (Decidable ('.' ∉ ext.toList ∧ '/' ∉ ext.toList))

variable {ext : String} {fs : FileSystem} {root : String}

theorem canBeSuffix_iff : CanBeSuffix ext ↔ dotByte ∉ utf8 ext ∧ slashByte ∉ utf8 ext := by
  rw [dotByte_mem_utf8_iff, slashByte_mem_utf8_iff, CanBeSuffix]

/-- Only such texts are looked for with success. -/
theorem canBeSuffix_of_isScriptPath
    (h : (config.withExtensions [ext]).isScriptPath path = true) : CanBeSuffix ext := by
  obtain ⟨s, other, hs, hother, hsame⟩ := isScriptPath_iff.mp h
  obtain rfl := List.mem_singleton.mp hother
  obtain ⟨hdot, hslash⟩ := canBeSuffix_iff.mpr hs.not_mem
  exact ⟨mt (hsame.mem (by decide)) hdot, mt (hsame.mem (by decide)) hslash⟩

/-- Behind a dot it makes a name. -/
theorem CanBeSuffix.isName (h : CanBeSuffix ext) (hne : ext ≠ "") {stem : List UInt8}
    (hslash : slashByte ∉ stem) :
    slashByte ∉ stem ++ dotByte :: utf8 ext ∧
      ∀ n, stem ++ dotByte :: utf8 ext ≠ List.replicate n dotByte := by
  obtain ⟨hdot, hslash'⟩ := canBeSuffix_iff.mp h
  refine ⟨fun hmem => ?_, fun n heq => ?_⟩
  · rcases List.mem_append.mp hmem with hmem | hmem
    · exact hslash hmem
    · exact hslash' ((List.mem_cons.mp hmem).resolve_left (by decide))
  · obtain ⟨b, hb⟩ := List.exists_mem_of_ne_nil _ (mt utf8_eq_nil_iff.mp hne)
    have hbyte : b ∈ List.replicate n dotByte :=
      heq ▸ List.mem_append_right _ (List.mem_cons_of_mem _ hb)
    exact hdot (List.eq_of_mem_replicate hbyte ▸ hb)

/-- A name with such a text behind its last dot has it as its suffix. -/
theorem CanBeSuffix.hasSuffix (h : CanBeSuffix ext) (hne : ext ≠ "") {stem : List UInt8}
    (hstem : stem ≠ []) (hslash : slashByte ∉ stem) :
    HasSuffix (stem ++ dotByte :: utf8 ext) (utf8 ext) := by
  obtain ⟨hname, hdots⟩ := h.isName hne hslash
  exact ⟨stem, ⟨[], [], by simp, .inl rfl, .nil, hname, hdots 0, hdots 1⟩, hstem,
    (canBeSuffix_iff.mp h).1, hdots 2⟩

theorem utf8_append_dot (stem ext : String) :
    utf8 (stem ++ "." ++ ext) = utf8 stem ++ dotByte :: utf8 ext := by
  rw [utf8_append, utf8_append, List.append_assoc]
  rfl

/-- A name with one of the extensions behind a dot is that of a script file, in any directory. -/
theorem CanBeSuffix.isScriptPath (h : CanBeSuffix ext) (hne : ext ≠ "")
    (hext : ext ∈ config.extensions) {stem : String} (hstem : stem ≠ "")
    (hslash : '/' ∉ stem.toList) (base : String) :
    config.isScriptPath (utf8 (Path.join base (stem ++ "." ++ ext))) = true := by
  have hstem' : utf8 stem ≠ [] := mt utf8_eq_nil_iff.mp hstem
  have hslash' : slashByte ∉ utf8 stem := mt slashByte_mem_utf8_iff.mp hslash
  obtain ⟨hname, hdots⟩ := h.isName hne hslash'
  have hidle : isIdle (utf8 stem ++ dotByte :: utf8 ext) = false :=
    Bool.eq_false_iff.mpr (mt isIdle_iff.mp (not_or.mpr ⟨hdots 0, hdots 1⟩))
  rw [← utf8_append_dot] at hname hidle
  rw [isScriptPath_join config base hname hidle, utf8_append_dot]
  exact isScriptPath_iff.mpr ⟨ext, ext, h.hasSuffix hne hstem' hslash', hext, .refl ext⟩

theorem isBadExtension_eq_false_iff :
    Configuration.isBadExtension ext = false ↔ ext ≠ "" ∧ ext.toList.head? ≠ some '.' := by
  rw [Configuration.isBadExtension, ne_eq, ← String.toList_eq_nil_iff]
  cases ext.toList <;> simp

/-- A configuration is valid if it has extensions, none of which is empty or begins with a dot. -/
theorem flaw?_eq_none_iff :
    config.flaw? = none ↔ config.extensions ≠ [] ∧
      ∀ ext ∈ config.extensions, ext ≠ "" ∧ ext.toList.head? ≠ some '.' := by
  rw [Configuration.flaw?]
  split
  · next hnil => simp [hnil]
  · next hne =>
    simp only [Option.map_eq_none_iff, List.find?_eq_none, Bool.not_eq_true,
      isBadExtension_eq_false_iff, ne_eq, hne, not_false_eq_true, true_and]

theorem scriptsBelow_congr {config' : Configuration}
    (h : ∀ path, config'.isScriptPath path = config.isScriptPath path) :
    scriptsBelow fs config' root = scriptsBelow fs config root := by
  simp only [scriptsBelow, h]

/-- An extension that cannot be a suffix may be left out. -/
theorem isScriptPath_filter_ne (h : ¬ CanBeSuffix ext) (path : List UInt8) :
    (config.withExtensions (config.extensions.filter (· ≠ ext))).isScriptPath path
      = config.isScriptPath path := by
  refine Bool.eq_iff_iff.mpr ⟨fun hscript => ?_, fun hscript => ?_⟩
  · refine isScriptPath_of_forall_exists hscript fun other hother => ?_
    exact ⟨other, (List.mem_filter.mp hother).1, .refl other⟩
  · rw [isScriptPath_eq_any] at hscript
    obtain ⟨other, hother, hmatch⟩ := List.any_eq_true.mp hscript
    have hne : other ≠ ext := by
      rintro rfl
      exact h (canBeSuffix_of_isScriptPath hmatch)
    refine isScriptPath_of_forall_exists hmatch fun ext' hext' => ?_
    obtain rfl := List.mem_singleton.mp hext'
    exact ⟨ext', List.mem_filter.mpr ⟨hother, by simp [hne]⟩, .refl ext'⟩

/-- **What an extension of a valid configuration can do.**  It is not empty and does not begin with a
dot, but it may still hold a dot or a slash.  If it does not, the name `x` with this suffix is that of
a script, and so is every name with it: the files below a directory that have it are all listed, as
far as they can be reached.  If it does, it is the suffix of no path, and may as well be left out. -/
theorem effect_of_valid_extension (hvalid : config.flaw? = none)
    (hext : ext ∈ config.extensions) :
    (ext ≠ "" ∧ ext.toList.head? ≠ some '.') ∧
    ((config.withExtensions [ext]).isScriptPath (utf8 ("x." ++ ext)) = true ↔ CanBeSuffix ext) ∧
    (CanBeSuffix ext → ∀ fs root location entries names stem content,
      FileSystem.resolve fs root = .ok (location, .directory entries) →
      (Node.directory entries).at? (names ++ [stem ++ "." ++ ext]) = some (.file content) →
      Path.Enterable root (names ++ [stem ++ "." ++ ext]) → stem ≠ "" → '/' ∉ stem.toList →
      Path.descend root (names ++ [stem ++ "." ++ ext]) ∈ scriptsBelow fs config root) ∧
    (¬ CanBeSuffix ext →
      (∀ path, (config.withExtensions [ext]).isScriptPath path = false) ∧
      ∀ fs root, scriptsBelow fs
        (config.withExtensions (config.extensions.filter (· ≠ ext))) root
          = scriptsBelow fs config root) := by
  obtain ⟨hne, hhead⟩ := (flaw?_eq_none_iff.mp hvalid).2 ext hext
  refine ⟨⟨hne, hhead⟩, ⟨canBeSuffix_of_isScriptPath, fun hplain => ?_⟩,
    fun hplain fs root location entries names stem content hresolve hfile henter hstem hslash => ?_,
    fun hno => ⟨fun path => ?_, fun fs root => scriptsBelow_congr (isScriptPath_filter_ne hno)⟩⟩
  · have hname : "x." ++ ext = Path.join "" ("x" ++ "." ++ ext) := by
      rw [Path.join, if_pos (by decide), String.empty_append]
      rfl
    rw [hname]
    exact hplain.isScriptPath hne (List.mem_singleton_self ext) (by decide) (by decide) ""
  · have hscript : config.isScriptPath
        (utf8 (Path.descend root (names ++ [stem ++ "." ++ ext]))) = true := by
      rw [Path.descend_append]
      exact hplain.isScriptPath hne hext hstem hslash (Path.descend root names)
    have hlisted : names ++ [stem ++ "." ++ ext] ∈ scriptNames config root (.directory entries) := by
      refine mem_scriptNames.mpr ⟨⟨by simp, ?_, ⟨content, hfile⟩, hscript⟩, henter⟩
      intro before name after hsplit
      rw [hsplit] at hfile
      exact exists_directory_of_at? hfile
    rw [scriptsBelow_eq_map hresolve (by simp)]
    exact List.mem_map_of_mem hlisted
  · exact Bool.eq_false_iff.mpr (mt canBeSuffix_of_isScriptPath hno)

/-- Of two extensions that are both accepted, one finds the name `x` and the other can be left out. -/
theorem effect_of_valid_extension_of_two :
    ((Configuration.standard.withExtensions ["txt"]).isScriptPath (utf8 ("x." ++ "txt")) = true) ∧
      ∀ fs root, scriptsBelow fs (Configuration.standard.withExtensions ["txt"]) root
        = scriptsBelow fs (Configuration.standard.withExtensions ["txt", "t.x"]) root := by
  have hvalid : (Configuration.standard.withExtensions ["txt", "t.x"]).flaw? = none := by
    decide +kernel
  have htxt := effect_of_valid_extension hvalid (List.mem_cons_self : "txt" ∈ ["txt", "t.x"])
  have hdot := effect_of_valid_extension hvalid (by decide : "t.x" ∈ ["txt", "t.x"])
  exact ⟨htxt.2.1.mpr (by decide), (hdot.2.2.2 (by decide)).2⟩

/-- **An extension with a dot in it is accepted**, but the name with this suffix has another one. -/
theorem extension_with_dot_accepted :
    (Configuration.standard.withExtensions ["t.x"]).flaw? = none ∧
      "t.x" ∈ (Configuration.standard.withExtensions ["t.x"]).extensions ∧
      (Configuration.standard.withExtensions ["t.x"]).isScriptPath (utf8 ("x." ++ "t.x"))
        = false := by
  decide +kernel

end DialogueScript
