/-
# Paths below a directory

The path of a file below a directory is the path of the directory with the names joined to it that
lead to the file.  A walk enters the directories on the way by their own paths, so these must not be
too long (`Enterable`); the last of them is the longest (`isReachable_iff`).

Joining loses nothing: from one directory, different names lead to different paths
(`descend_inj`).  What stands between the path of the directory and the first name is the same for
all names, and behind it the path is cut apart at its slashes.
-/
import DialogueScript.File.Walk
import DialogueScript.Proofs.Text.Pieces

namespace DialogueScript

namespace Path

variable {root base name : String} {names names' : List String}

/-- A name that an entry of a directory can have. -/
def IsName (name : String) : Prop :=
  name ≠ "" ∧ '/' ∉ name.toList

/-- The directories on the way to a file can be entered, for none of their paths is too long. -/
def Enterable (root : String) (names : List String) : Prop :=
  ∀ before name after, names = before ++ name :: after →
    (descend root before).utf8ByteSize ≤ maxSize

theorem utf8ByteSize_le_descend (base : String) (names : List String) :
    base.utf8ByteSize ≤ (descend base names).utf8ByteSize := by
  induction names generalizing base with
  | nil => exact Nat.le_refl _
  | cons name names ih =>
    have hjoin : base.utf8ByteSize ≤ (join base name).utf8ByteSize := by
      rw [join]
      split
      · rw [String.utf8ByteSize_append]
        exact Nat.le_add_right _ _
      · rw [String.utf8ByteSize_append, String.utf8ByteSize_append, Nat.add_assoc]
        exact Nat.le_add_right _ _
    exact Nat.le_trans hjoin (ih (join base name))

theorem descend_append (root : String) (before after : List String) :
    descend root (before ++ after) = descend (descend root before) after :=
  List.foldl_append

/-- The directory that a file is in has the longest path of all on the way. -/
theorem isReachable_iff (hnames : names ≠ []) :
    isReachable root names = true ↔ Enterable root names := by
  have hlong : isReachable root names = true ↔
      (descend root names.dropLast).utf8ByteSize ≤ maxSize := by
    simp [isReachable, isLong]
  rw [hlong]
  constructor
  · rintro h before name after rfl
    have hsplit : (before ++ name :: after).dropLast = before ++ (name :: after).dropLast :=
      List.dropLast_append_of_ne_nil (List.cons_ne_nil _ _)
    rw [hsplit, descend_append] at h
    exact Nat.le_trans (utf8ByteSize_le_descend _ _) h
  · intro h
    exact h names.dropLast (names.getLast hnames) [] (List.dropLast_concat_getLast hnames).symm

/-! ### Different names lead to different paths -/

/-- What stands between a path and a name that is joined to it depends on the path alone. -/
theorem exists_separator (base : String) :
    ∃ separator, ∀ name, (join base name).toList = base.toList ++ separator ++ name.toList := by
  by_cases hbare : (base = "" || endsInSlash base) = true
  · exact ⟨[], fun name => by rw [join, if_pos hbare, String.toList_append, List.append_nil]⟩
  · refine ⟨['/'], fun name => ?_⟩
    rw [join, if_neg hbare, String.toList_append, String.toList_append]
    rfl

theorem getLast?_toList_join (h : IsName name) :
    (join base name).toList.getLast? ≠ none ∧ (join base name).toList.getLast? ≠ some '/' := by
  obtain ⟨separator, hjoin⟩ := exists_separator base
  obtain ⟨front, last, hlast⟩ : ∃ front last, name.toList = front ++ [last] :=
    ⟨_, _, (List.dropLast_concat_getLast (mt String.toList_eq_nil_iff.mp h.1)).symm⟩
  rw [hjoin, hlast, ← List.append_assoc, List.getLast?_concat]
  refine ⟨Option.some_ne_none _, fun heq => h.2 ?_⟩
  rw [hlast, Option.some.inj heq]
  exact List.mem_append_right _ List.mem_cons_self

/-- Behind a name, further names are joined with a slash each. -/
theorem toList_descend (hbase : base.toList.getLast? ≠ none ∧ base.toList.getLast? ≠ some '/')
    (hnames : ∀ name ∈ names, IsName name) :
    (descend base names).toList = base.toList ++ names.flatMap fun name => '/' :: name.toList := by
  induction names generalizing base with
  | nil => rw [List.flatMap_nil, List.append_nil]; rfl
  | cons name names ih =>
    have hjoin : (join base name).toList = base.toList ++ '/' :: name.toList := by
      have hempty : base ≠ "" := by
        rintro rfl
        exact hbase.1 rfl
      have hslash : endsInSlash base = false := beq_false_of_ne hbase.2
      rw [join, if_neg (by simp [hempty, hslash]), String.toList_append, String.toList_append,
        List.append_assoc]
      rfl
    have hlast : (join base name).toList.getLast? ≠ none ∧
        (join base name).toList.getLast? ≠ some '/' :=
      getLast?_toList_join (hnames name List.mem_cons_self)
    have hrest := ih hlast fun other hother => hnames other (List.mem_cons_of_mem _ hother)
    rw [List.flatMap_cons]
    show (descend (join base name) names).toList = _
    rw [hrest, hjoin, List.append_assoc]

/-- Names with a slash before each but the first are cut apart at the slashes. -/
theorem splitOn_slash_names (hname : IsName name) (hnames : ∀ name ∈ names, IsName name) :
    (name.toList ++ names.flatMap fun name => '/' :: name.toList).splitOn '/'
      = (name :: names).map String.toList := by
  induction names generalizing name with
  | nil =>
    rw [List.flatMap_nil, List.append_nil, List.splitOn_eq_singleton hname.2]
    rfl
  | cons next names ih =>
    have hrest := ih (hnames next List.mem_cons_self)
      fun other hother => hnames other (List.mem_cons_of_mem _ hother)
    rw [List.flatMap_cons, List.cons_append, List.splitOn_append_cons_self_of_not_mem hname.2, hrest]
    rfl

/-- **Different names lead to different paths** below one directory. -/
theorem descend_inj (hne : names ≠ []) (hne' : names' ≠ []) (hnames : ∀ name ∈ names, IsName name)
    (hnames' : ∀ name ∈ names', IsName name) (h : descend root names = descend root names') :
    names = names' := by
  obtain ⟨separator, hjoin⟩ := exists_separator root
  -- what is behind the directory and the separator, is cut at the slashes
  have hbehind : ∀ {names : List String}, names ≠ [] → (∀ name ∈ names, IsName name) →
      ∃ behind, (descend root names).toList = root.toList ++ separator ++ behind ∧
        behind.splitOn '/' = names.map String.toList := by
    intro names hne hnames
    obtain ⟨name, rest, rfl⟩ := List.exists_cons_of_ne_nil hne
    have hname := hnames name List.mem_cons_self
    have hrest : ∀ other ∈ rest, IsName other :=
      fun other hother => hnames other (List.mem_cons_of_mem _ hother)
    refine ⟨_, ?_, splitOn_slash_names hname hrest⟩
    show (descend (join root name) rest).toList = _
    rw [toList_descend (getLast?_toList_join hname) hrest, hjoin, List.append_assoc]
  obtain ⟨behind, htext, hcut⟩ := hbehind hne hnames
  obtain ⟨behind', htext', hcut'⟩ := hbehind hne' hnames'
  rw [h, htext'] at htext
  have heq : names.map String.toList = names'.map String.toList := by
    rw [← hcut, ← List.append_cancel_left htext, hcut']
  exact (List.map_inj_right fun _ _ => String.toList_inj.mp).mp heq

end Path

end DialogueScript
