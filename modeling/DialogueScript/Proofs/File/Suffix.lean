/-
# The last name decides

Whether a path is that of a script file depends on its last name alone: what stands before the last
slash does not matter (`isScriptPath_append`).
-/
import DialogueScript.Configuration.Basic

namespace DialogueScript

variable {name : List UInt8}

/-- A name with nothing before it is the last one, unless it asks for the directory above. -/
theorem lastName?_eq_of_not_mem (hslash : slashByte ∉ name) (hidle : isIdle name = false) :
    lastName? name = if name = [dotByte, dotByte] then none else some name := by
  rw [lastName?, List.splitOn_eq_singleton hslash, List.filter_cons_of_pos (by rw [hidle]; rfl)]
  rfl

/-- **What stands before the last name does not matter** to the last name of a path. -/
theorem lastName?_append (path : List UInt8) (hslash : slashByte ∉ name)
    (hidle : isIdle name = false) : lastName? (path ++ slashByte :: name) = lastName? name := by
  rw [lastName?_eq_of_not_mem hslash hidle, lastName?, List.splitOn_append_cons_self,
    List.splitOn_eq_singleton hslash, List.filter_append,
    List.filter_cons_of_pos (by rw [hidle]; rfl), List.filter_nil, List.getLast?_concat]

/-- Nor does it matter to whether the path is that of a script file. -/
theorem isScriptPath_append (config : Configuration) (path : List UInt8)
    (hslash : slashByte ∉ name) (hidle : isIdle name = false) :
    config.isScriptPath (path ++ slashByte :: name) = config.isScriptPath name := by
  rw [Configuration.isScriptPath, Configuration.isScriptPath, suffixText?, suffixText?,
    lastName?_append path hslash hidle]

/-- A name is joined to a path behind a slash, which may be the last character of the path. -/
theorem utf8_join {base : String} (hbase : base ≠ "") (name : String) :
    ∃ path, utf8 (Path.join base name) = path ++ slashByte :: utf8 name := by
  by_cases hslash : Path.endsInSlash base = true
  · obtain ⟨front, hfront⟩ := List.getLast?_eq_some_iff.mp (beq_iff_eq.mp hslash)
    have hcut : base = String.ofList front ++ "/" := by
      rw [← String.toList_inj, String.toList_append, String.toList_ofList, hfront]
      rfl
    refine ⟨utf8 (String.ofList front), ?_⟩
    rw [Path.join, hslash, Bool.or_true, if_pos rfl, hcut, utf8_append, utf8_append,
      List.append_assoc]
    rfl
  · refine ⟨utf8 base, ?_⟩
    rw [Path.join, if_neg (by simp [hbase, hslash]), utf8_append, utf8_append, List.append_assoc]
    rfl

/-- A file below a directory is a script file, or not, by its name. -/
theorem isScriptPath_join (config : Configuration) (base : String) {name : String}
    (hslash : slashByte ∉ utf8 name) (hidle : isIdle (utf8 name) = false) :
    config.isScriptPath (utf8 (Path.join base name)) = config.isScriptPath (utf8 name) := by
  by_cases hbase : base = ""
  · have hjoin : Path.join "" name = "" ++ name := if_pos rfl
    rw [hbase, hjoin, String.empty_append]
  · obtain ⟨path, hpath⟩ := utf8_join hbase name
    rw [hpath, isScriptPath_append config path hslash hidle]

end DialogueScript
