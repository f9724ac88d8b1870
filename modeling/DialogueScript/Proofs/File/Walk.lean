/-
# What a walk lists

A walk below a directory lists the script files in it and in the directories below.  It does so
completely and in a fixed order: a file is listed exactly if the names that lead to it go through real
directories only, it is a regular file itself, and its path has a configured extension
(`IsScript`); and the files are ordered by these names, the first difference deciding
(`Precedes`).  There is one exception, which is why directories have to be `Enterable`: they are
entered by their path, and one whose path is too long is left out with all that is in it
(`long_directory_left_out`).

Members and order of the list come from the recursion of the walk (`mem_files`, `pairwise_files`), and
together they leave only one list.  So the order in which the entries of a directory were created
does not matter (`files_eq_of_alike`).
-/
import Mathlib.Data.List.Lex
import Mathlib.Data.List.Nodup
import DialogueScript.Proofs.File.Path
import DialogueScript.Proofs.File.Suffix
import DialogueScript.Proofs.File.Tree

namespace DialogueScript

/-- The order of lists of names, compared name by name in byte order. -/
def Precedes : List String → List String → Prop :=
  List.Lex ByteOrder

instance : Std.Asymm ByteOrder where
  asymm _ _ h h' := ByteOrder.irrefl _ (h.trans h')

instance : Std.Asymm Precedes :=
  inferInstanceAs (Std.Asymm (List.Lex ByteOrder))

theorem nodup_of_pairwise_precedes {list : List (List String)} (h : list.Pairwise Precedes) :
    list.Nodup := by
  refine h.imp ?_
  rintro names _ hlt rfl
  exact Std.Asymm.asymm _ _ hlt hlt

/-- A list in order is determined by its members. -/
theorem eq_of_pairwise_precedes {list list' : List (List String)} (h : list.Pairwise Precedes)
    (h' : list'.Pairwise Precedes) (hmem : ∀ names, names ∈ list ↔ names ∈ list') :
    list = list' := by
  have hperm := (List.perm_ext_iff_of_nodup (nodup_of_pairwise_precedes h)
    (nodup_of_pairwise_precedes h')).mpr hmem
  refine hperm.eq_of_pairwise ?_ h h'
  intro names names' _ _ hlt hgt
  exact (Std.Asymm.asymm names names' hlt hgt).elim

namespace Node

/-! ### The files below a node -/

theorem lookup_entryFiles (entries : List (String × Node)) (name : String) :
    (entryFiles entries).lookup name = (entries.lookup name).map files := by
  induction entries with
  | nil => rfl
  | cons head rest ih =>
    obtain ⟨other, node⟩ := head
    rw [entryFiles, Catalogue.lookup_cons_eq_if, Catalogue.lookup_cons_eq_if, ih]
    split
    · rfl
    · rfl

/-- The listing of a directory has the files below an entry under the name of the entry. -/
theorem mem_listing {entries : List (String × Node)} {name : String}
    {paths : List (List String)} :
    (name, paths) ∈ (Catalogue.ofList (entryFiles entries)).entries ↔
      ∃ below, entries.lookup name = some below ∧ below.files = paths := by
  rw [Catalogue.mem_entries_iff, Catalogue.find?_ofList, lookup_entryFiles, Option.map_eq_some_iff]

theorem mem_files_directory {entries : List (String × Node)} {names : List String} :
    names ∈ (directory entries).files ↔
      ∃ name rest below, names = name :: rest ∧ entries.lookup name = some below ∧
        rest ∈ below.files := by
  rw [files, List.mem_flatMap]
  constructor
  · rintro ⟨⟨name, paths⟩, hlisted, hnames⟩
    obtain ⟨below, hbelow, rfl⟩ := mem_listing.mp hlisted
    obtain ⟨rest, hrest, rfl⟩ := List.mem_map.mp hnames
    exact ⟨name, rest, below, rfl, hbelow, hrest⟩
  · rintro ⟨name, rest, below, rfl, hbelow, hrest⟩
    exact ⟨(name, below.files), mem_listing.mpr ⟨below, hbelow, rfl⟩, List.mem_map_of_mem hrest⟩

/-- **The walk finds the regular files**, through directories and nothing else. -/
theorem mem_files {node : Node} {names : List String} :
    names ∈ node.files ↔ ∃ content, node.at? names = some (.file content) := by
  induction names generalizing node with
  | nil =>
    rw [at?_nil]
    cases node with
    | file content => simp [files]
    | link target => simp [files]
    | directory entries =>
      rw [mem_files_directory]
      simp
  | cons name names ih =>
    cases node with
    | file content => simp [files, at?]
    | link target => simp [files, at?]
    | directory entries =>
      rw [mem_files_directory, at?]
      rcases hentry : entries.lookup name with - | below
      · simp [hentry]
      · simp [hentry, ih]

theorem sizeOf_lt_of_lookup {entries : List (String × Node)} {name : String} {below : Node}
    (h : entries.lookup name = some below) : sizeOf below < sizeOf (directory entries) := by
  obtain ⟨before, after, rfl, -⟩ := List.lookup_eq_some_iff.mp h
  have hmem : (name, below) ∈ before ++ (name, below) :: after :=
    List.mem_append_right _ List.mem_cons_self
  have hentry := List.sizeOf_lt_of_mem hmem
  simp only [Prod.mk.sizeOf_spec, directory.sizeOf_spec] at hentry ⊢
  omega

/-- **The walk lists files in order.** -/
theorem pairwise_files (node : Node) : node.files.Pairwise Precedes := by
  match node with
  | file content => exact List.pairwise_singleton ..
  | link target => exact .nil
  | directory entries =>
    rw [files]
    apply List.pairwise_flatMap.mpr
    constructor
    · rintro ⟨name, paths⟩ hlisted
      obtain ⟨below, hbelow, rfl⟩ := mem_listing.mp hlisted
      exact List.pairwise_map.mpr ((pairwise_files below).imp .cons)
    · refine (Catalogue.ofList (entryFiles entries)).increasing.imp ?_
      rintro ⟨name, paths⟩ ⟨name', paths'⟩ hname names hnames names' hnames'
      obtain ⟨rest, -, rfl⟩ := List.mem_map.mp hnames
      obtain ⟨rest', -, rfl⟩ := List.mem_map.mp hnames'
      exact .rel hname
termination_by sizeOf node
decreasing_by exact sizeOf_lt_of_lookup hbelow

theorem mem_files_of_alike {node node' : Node} (h : node.Alike node') {names : List String}
    (hmem : names ∈ node.files) : names ∈ node'.files := by
  obtain ⟨content, hfile⟩ := mem_files.mp hmem
  obtain ⟨below', hbelow', halike⟩ := h.below hfile
  obtain ⟨content', hcontent, rfl⟩ | ⟨target, htarget, -⟩ | ⟨entries, entries', hentries, -⟩ :=
    halike.cases
  · exact mem_files.mpr ⟨content', hbelow'⟩
  · cases htarget
  · cases hentries

/-- **The order of entries does not matter**: nodes that are alike have the same list of files. -/
theorem files_eq_of_alike {node node' : Node} (h : node.Alike node') : node.files = node'.files := by
  apply eq_of_pairwise_precedes (pairwise_files node) (pairwise_files node')
  intro names
  exact ⟨mem_files_of_alike h, mem_files_of_alike h.symm⟩

end Node

/-! ### The script files below a path -/

variable {fs : FileSystem} {config : Configuration} {root : String}

/-- Names lead from a node to a script file: through directories only, to a regular file, which has
one of the configured extensions. -/
structure IsScript (config : Configuration) (root : String) (node : Node) (names : List String) :
    Prop where
  names_ne_nil : names ≠ []
  directories : ∀ before name after, names = before ++ name :: after →
    ∃ entries, node.at? before = some (.directory entries)
  file : ∃ content, node.at? names = some (.file content)
  isScriptPath : config.isScriptPath (utf8 (Path.descend root names)) = true

/-- What leads to something below a node leads through directories. -/
theorem exists_directory_of_at? {node below : Node} {before after : List String} {name : String}
    (h : node.at? (before ++ name :: after) = some below) :
    ∃ entries, node.at? before = some (.directory entries) := by
  rw [Node.at?_append] at h
  obtain ⟨middle, hmiddle, hbelow⟩ := Option.bind_eq_some_iff.mp h
  obtain ⟨entries, rfl⟩ := Node.eq_directory_of_at?_cons hbelow
  exact ⟨entries, hmiddle⟩

/-- The script files below a node that can be reached, as the names that lead to them. -/
def scriptNames (config : Configuration) (root : String) (node : Node) : List (List String) :=
  (node.files.filter (Path.isReachable root)).filter fun names =>
    config.isScriptPath (utf8 (Path.descend root names))

theorem pairwise_scriptNames (node : Node) :
    (scriptNames config root node).Pairwise Precedes :=
  ((Node.pairwise_files node).filter _).filter _

theorem mem_files_of_mem_scriptNames {node : Node} {names : List String}
    (h : names ∈ scriptNames config root node) : names ∈ node.files :=
  List.mem_of_mem_filter (List.mem_of_mem_filter h)

theorem mem_scriptNames {entries : List (String × Node)} {names : List String} :
    names ∈ scriptNames config root (.directory entries) ↔
      IsScript config root (.directory entries) names ∧ Path.Enterable root names := by
  rw [scriptNames, List.mem_filter, List.mem_filter, Node.mem_files]
  constructor
  · rintro ⟨⟨⟨content, hfile⟩, hreachable⟩, hscript⟩
    have hne : names ≠ [] := by
      rintro rfl
      cases hfile
    refine ⟨⟨hne, ?_, ⟨content, hfile⟩, hscript⟩, (Path.isReachable_iff hne).mp hreachable⟩
    rintro before name after rfl
    exact exists_directory_of_at? hfile
  · rintro ⟨⟨hne, -, hfile, hscript⟩, henter⟩
    exact ⟨⟨hfile, (Path.isReachable_iff hne).mpr henter⟩, hscript⟩

/-- A path to anything but a file stands for the script files below. -/
theorem scriptsBelow_eq_map {location : Location} {node : Node}
    (h : fs.resolve root = .ok (location, node)) (hfile : ∀ content, node ≠ .file content) :
    scriptsBelow fs config root = (scriptNames config root node).map (Path.descend root) := by
  rw [scriptsBelow, h, scriptNames]
  cases node with
  | file content => exact absurd rfl (hfile content)
  | link | directory => exact List.filter_map

/-- The names on the way to a node are such as entries can have. -/
def Node.ProperlyNamed (node : Node) : Prop :=
  ∀ location below, node.at? location = some below → ∀ name ∈ location, Path.IsName name

theorem Node.ProperlyNamed.below {node below : Node} (h : node.ProperlyNamed) {location : Location}
    (hbelow : node.at? location = some below) : below.ProperlyNamed := by
  intro further node' hnode' name hname
  refine h (location ++ further) node' ?_ name (List.mem_append_right _ hname)
  rw [at?_append, hbelow]
  exact hnode'

/-- No path is listed twice. -/
theorem nodup_scriptsBelow (h : fs.root.ProperlyNamed) : (scriptsBelow fs config root).Nodup := by
  rcases hresolve : fs.resolve root with failure | ⟨location, node⟩
  · rw [scriptsBelow, hresolve]
    exact List.nodup_nil
  · by_cases hfile : ∃ content, node = .file content
    · obtain ⟨content, rfl⟩ := hfile
      rw [scriptsBelow, hresolve]
      exact List.nodup_singleton root
    · have hfile : ∀ content, node ≠ .file content := not_exists.mp hfile
      have hproper : ∀ names ∈ scriptNames config root node,
          names ≠ [] ∧ ∀ name ∈ names, Path.IsName name := by
        intro names hnames
        obtain ⟨content, hat⟩ := Node.mem_files.mp (mem_files_of_mem_scriptNames hnames)
        constructor
        · rintro rfl
          rw [Node.at?_nil] at hat
          exact hfile content (Option.some.inj hat)
        · exact h.below (FileSystem.at?_of_resolve hresolve) names _ hat
      rw [scriptsBelow_eq_map hresolve hfile]
      refine List.Nodup.map_on ?_ (nodup_of_pairwise_precedes (pairwise_scriptNames node))
      intro names hnames names' hnames' heq
      obtain ⟨hne, hname⟩ := hproper names hnames
      obtain ⟨hne', hname'⟩ := hproper names' hnames'
      exact Path.descend_inj hne hne' hname hname' heq

/-- In trees that are alike a path stands for the same files. -/
theorem scriptsBelow_eq_of_alike {fs' : FileSystem} (h : fs.Alike fs') :
    scriptsBelow fs' config root = scriptsBelow fs config root := by
  have hresolved := FileSystem.resolve_alike h root
  unfold scriptsBelow
  generalize fs.resolve root = result, fs'.resolve root = result' at hresolved ⊢
  cases hresolved with
  | failed failure => rfl
  | found location hnode =>
    rcases hnode.cases with ⟨content, rfl, rfl⟩ | ⟨target, rfl, rfl⟩ | ⟨entries, entries', rfl, rfl⟩
    · rfl
    · rfl
    · simp only [Node.files_eq_of_alike hnode]

/-- What a path stands for: the file it leads to; or the script files below the directory it leads
to, in order; or nothing. -/
structure ListsScripts (fs : FileSystem) (config : Configuration) (root : String)
    (paths : List String) : Prop where
  of_file : ∀ location content, fs.resolve root = .ok (location, .file content) → paths = [root]
  of_directory : ∀ location entries, fs.resolve root = .ok (location, .directory entries) →
    ∃ listing : List (List String), paths = listing.map (Path.descend root) ∧
      listing.Pairwise Precedes ∧
      ∀ names, names ∈ listing ↔
        IsScript config root (.directory entries) names ∧ Path.Enterable root names
  of_neither : (∀ location content, fs.resolve root ≠ .ok (location, .file content)) →
    (∀ location entries, fs.resolve root ≠ .ok (location, .directory entries)) → paths = []
  nodup : fs.root.ProperlyNamed → paths.Nodup
  /-- The order in which the entries of directories were created does not matter. -/
  of_alike : ∀ fs', fs.Alike fs' → scriptsBelow fs' config root = paths

/-- **The walk lists the script files**, all that it can reach and no others, in the order of the
names that lead to them. -/
theorem scriptsBelow_lists (fs : FileSystem) (config : Configuration) (root : String) :
    ListsScripts fs config root (scriptsBelow fs config root) where
  of_file location content h := by rw [scriptsBelow, h]
  of_directory location entries h :=
    ⟨scriptNames config root (.directory entries), scriptsBelow_eq_map h nofun,
      pairwise_scriptNames _, fun _ => mem_scriptNames⟩
  of_neither hfile hdirectory := by
    rcases hresolve : fs.resolve root with failure | ⟨location, node⟩
    · rw [scriptsBelow, hresolve]
    · cases node with
      | file content => exact absurd hresolve (hfile location content)
      | directory entries => exact absurd hresolve (hdirectory location entries)
      | link target => rw [scriptsBelow_eq_map hresolve nofun]; rfl
  nodup := nodup_scriptsBelow
  of_alike _ := scriptsBelow_eq_of_alike

/-- A directory with a file, a link to it, and a directory with the name of the file cut short. -/
def nestedEntries : List (String × Node) :=
  [("b.txt", .file "<a>".toUTF8), ("c.txt", .link "b.txt"),
    ("b", .directory [("z.TXT", .file "<b>".toUTF8), ("n.md", .file "".toUTF8)])]

/-- The nested directory `d`, with a link to it. -/
def nestedTree : FileSystem :=
  ⟨.directory [("d", .directory nestedEntries), ("s", .link "d")], []⟩

/-- The walk at a link to a directory. -/
theorem scriptsBelow_lists_of_linked_directory :
    nestedTree.resolve "s" = .ok (["d"], .directory nestedEntries) ∧
      ∃ listing : List (List String),
        scriptsBelow nestedTree .standard "s" = listing.map (Path.descend "s") ∧
        listing.Pairwise Precedes ∧ ∀ names, names ∈ listing ↔
          IsScript .standard "s" (.directory nestedEntries) names ∧ Path.Enterable "s" names :=
  ⟨rfl, (scriptsBelow_lists nestedTree .standard "s").of_directory ["d"] nestedEntries rfl⟩

/-- The files in a directory come where its name does, although a dot stands before a slash. -/
example : scriptsBelow nestedTree .standard "s" = ["s/b/z.TXT", "s/b.txt"] := by decide +kernel

/-! ### A directory that cannot be entered -/

/-- The working directory, spelled with `n` slashes behind the dot. -/
def currentDirectory : Nat → String
  | 0 => "."
  | n + 1 => currentDirectory n ++ "/"

theorem toList_currentDirectory (n : Nat) :
    (currentDirectory n).toList = '.' :: List.replicate n '/' := by
  induction n with
  | zero => rfl
  | succ n ih =>
    rw [currentDirectory, String.toList_append, ih, List.replicate_succ']
    rfl

theorem utf8ByteSize_currentDirectory (n : Nat) : (currentDirectory n).utf8ByteSize = n + 1 := by
  induction n with
  | zero => rfl
  | succ n ih =>
    rw [currentDirectory, String.utf8ByteSize_append, ih]
    rfl

theorem endsInSlash_currentDirectory (n : Nat) :
    Path.endsInSlash (currentDirectory (n + 1)) = true := by
  rw [Path.endsInSlash, currentDirectory, String.toList_append]
  exact beq_iff_eq.mpr List.getLast?_concat

/-- Further slashes at the end add no names. -/
theorem names_currentDirectory (n : Nat) : Path.names (currentDirectory (n + 1)) = [".", "."] := by
  have hpieces : ∀ n, (Path.pieces (currentDirectory n)).filter (· ≠ "") = ["."] := by
    intro n
    induction n with
    | zero => decide +kernel
    | succ n ih =>
      have hcut : Path.pieces (currentDirectory (n + 1))
          = Path.pieces (currentDirectory n) ++ [""] := by
        rw [Path.pieces, currentDirectory, String.toList_append]
        show (((currentDirectory n).toList ++ '/' :: []).splitOn '/').map String.ofList = _
        rw [List.splitOn_append_cons_self, List.map_append]
        rfl
      rw [hcut, List.filter_append, ih]
      rfl
  rw [Path.names, hpieces, endsInSlash_currentDirectory]
  rfl

/-- All spellings that are not too long lead to the working directory. -/
theorem resolve_currentDirectory {entries : List (String × Node)} {n : Nat}
    (hdirectory : fs.root.at? fs.workingDirectory = some (.directory entries))
    (hn : n + 1 < Path.maxSize) :
    fs.resolve (currentDirectory (n + 1)) = .ok (fs.workingDirectory, .directory entries) := by
  have hne : currentDirectory (n + 1) ≠ "" := by
    intro h
    have hsize := utf8ByteSize_currentDirectory (n + 1)
    rw [h] at hsize
    cases hsize
  have hnul : '\x00' ∉ (currentDirectory (n + 1)).toList := by
    rw [toList_currentDirectory]
    simp
  have hshort : Path.isLong (currentDirectory (n + 1)) = false := by
    rw [Path.isLong, utf8ByteSize_currentDirectory]
    exact decide_eq_false (Nat.not_lt.mpr hn)
  have hstart : FileSystem.startOf fs.workingDirectory (currentDirectory (n + 1))
      = fs.workingDirectory := by
    rw [FileSystem.startOf, Path.isAbsolute, toList_currentDirectory]
    rfl
  rw [FileSystem.resolve, if_neg hne, if_neg hnul, hshort, hstart, names_currentDirectory,
    FileSystem.follow, FileSystem.arrive]
  simp [FileSystem.advance, hdirectory]

theorem isLong_join_currentDirectory {n : Nat} {name : String}
    (h : Path.maxSize < n + 2 + name.utf8ByteSize) :
    Path.isLong (Path.join (currentDirectory (n + 1)) name) = true := by
  rw [Path.join, endsInSlash_currentDirectory, Bool.or_true, if_pos rfl, Path.isLong,
    String.utf8ByteSize_append, utf8ByteSize_currentDirectory]
  exact decide_eq_true h

/-- A directory with a script in it. -/
def directoryWithScript : List (String × Node) :=
  [("dd", .directory [("x.txt", .file "<a>".toUTF8)])]

theorem isScript_directoryWithScript (root : String) :
    IsScript .standard root (.directory directoryWithScript) ["dd", "x.txt"] := by
  have hfile : (Node.directory directoryWithScript).at? ["dd", "x.txt"]
      = some (.file "<a>".toUTF8) := by
    simp [directoryWithScript, Node.at?]
  refine ⟨List.cons_ne_nil _ _, fun before name after hnames => ?_, ⟨_, hfile⟩, ?_⟩
  · rw [hnames] at hfile
    exact exists_directory_of_at? hfile
  · show Configuration.standard.isScriptPath
      (utf8 (Path.join (Path.join root "dd") "x.txt")) = true
    rw [isScriptPath_join _ _ (by decide +kernel) (by decide +kernel)]
    decide +kernel

/-- The script is not found if the path of its directory is too long. -/
theorem scriptNames_directoryWithScript (h : Path.isLong (Path.join root "dd") = true) :
    scriptNames .standard root (.directory directoryWithScript) = [] := by
  have hfiles : (Node.directory directoryWithScript).files = [["dd", "x.txt"]] := by
    decide +kernel
  have hunreachable : Path.isReachable root ["dd", "x.txt"] = false := by
    show (! Path.isLong (Path.join root "dd")) = false
    rw [h]
    rfl
  rw [scriptNames, hfiles, List.filter_cons_of_neg (by simp [hunreachable])]
  rfl

/-- The directory with the script, as the working directory. -/
def treeWithScript : FileSystem :=
  ⟨.directory directoryWithScript, []⟩

/-- **A script is left out** if the path of a directory on the way is too long, although the
directory and the script are there: here the directory above has a path of 4094 bytes. -/
theorem long_directory_left_out :
    treeWithScript.resolve (currentDirectory 4093) = .ok ([], .directory directoryWithScript) ∧
      IsScript .standard (currentDirectory 4093) (.directory directoryWithScript)
        ["dd", "x.txt"] ∧
      Path.descend (currentDirectory 4093) ["dd", "x.txt"]
        ∉ scriptsBelow treeWithScript .standard (currentDirectory 4093) := by
  have hresolve : treeWithScript.resolve (currentDirectory 4093)
      = .ok ([], .directory directoryWithScript) :=
    resolve_currentDirectory rfl (by decide)
  have hlong : Path.isLong (Path.join (currentDirectory 4093) "dd") = true :=
    isLong_join_currentDirectory (by decide)
  refine ⟨hresolve, isScript_directoryWithScript _, ?_⟩
  rw [scriptsBelow_eq_map hresolve nofun, scriptNames_directoryWithScript hlong]
  exact List.not_mem_nil

end DialogueScript
