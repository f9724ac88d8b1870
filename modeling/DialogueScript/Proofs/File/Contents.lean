/-
# What does not depend on the texts of files

Where a path leads, and which files it stands for, depends on the names and the links of a tree and
not on what is written in its files.  To say so, the files of a tree are emptied (`Node.outline`):
every path leads to the same location in the tree and in its outline (`resolve_outline`), and
stands for the same scripts (`scriptsBelow_outline`).

So two trees that differ in one file (`DiffersAt`) have outlines that are alike, and all that is
known of trees that are alike holds of the outlines.  What is read at a path is the same in both
trees, unless the path leads to that file (`DiffersAt.readText_eq`).  Such a tree is what comes of
writing the file (`differsAt_put`).  Where the entries of a directory are put in another order, the
whole stays alike (`alike_put`), and the same scripts are listed (`ListsScripts.of_perm`).
-/
import DialogueScript.File.Create
import DialogueScript.Proofs.File.Walk

namespace DialogueScript

namespace Node

/-! ### Outlines -/

mutual

/-- The node with all its files emptied. -/
def outline : Node → Node
  | file _ => file .empty
  | link target => link target
  | directory entries => directory (outlineEntries entries)

/-- The entries with all files emptied. -/
def outlineEntries : List (String × Node) → List (String × Node)
  | [] => []
  | (name, node) :: entries => (name, outline node) :: outlineEntries entries

end

theorem lookup_outlineEntries (entries : List (String × Node)) (name : String) :
    (outlineEntries entries).lookup name = (entries.lookup name).map outline := by
  induction entries with
  | nil => rfl
  | cons head entries ih =>
    rw [outlineEntries, Catalogue.lookup_cons_eq_if, Catalogue.lookup_cons_eq_if, ih]
    split
    · rfl
    · rfl

/-- In the outline of a node the same locations are found. -/
theorem at?_outline (node : Node) (location : Location) :
    node.outline.at? location = (node.at? location).map outline := by
  induction location generalizing node with
  | nil => rw [at?_nil, at?_nil, Option.map_some]
  | cons name names ih =>
    cases node with
    | file | link =>
      rw [outline]
      rfl
    | directory entries =>
      rw [outline, at?, at?, lookup_outlineEntries]
      cases entries.lookup name with
      | none => rfl
      | some below => exact ih below

theorem bare_outline (node : Node) : node.outline.bare = node.bare.outline := by
  cases node with
  | file | link | directory => simp only [outline, bare, outlineEntries]

theorem files_outline (node : Node) : node.outline.files = node.files := by
  apply eq_of_pairwise_precedes (pairwise_files _) (pairwise_files _)
  intro names
  rw [mem_files, mem_files, at?_outline]
  constructor
  · rintro ⟨content, hcontent⟩
    obtain ⟨below, hbelow, houtline⟩ := Option.map_eq_some_iff.mp hcontent
    cases below with
    | file content' => exact ⟨content', hbelow⟩
    | link | directory =>
      rw [outline] at houtline
      cases houtline
  · rintro ⟨content, hcontent⟩
    exact ⟨.empty, by rw [hcontent, Option.map_some, outline]⟩

end Node

namespace FileSystem

/-- The file system with all files emptied. -/
def outline (fs : FileSystem) : FileSystem := ⟨fs.root.outline, fs.workingDirectory⟩

end FileSystem

/-- Where a walk stops in an outline. -/
def Stop.outline : Stop → Stop
  | reached location node => reached location node.outline
  | stop => stop

/-- Where a path leads in an outline. -/
def Arrival.outline : Arrival → Arrival
  | found location node => found location node.outline
  | arrival => arrival

namespace FileSystem

variable (fs : FileSystem)

/-! ### Following a path -/

theorem advance_outline (location : Location) (names : List String) :
    fs.outline.advance location names = (fs.advance location names).outline := by
  have hat : ∀ location, fs.outline.root.at? location = (fs.root.at? location).map Node.outline :=
    fs.root.at?_outline
  induction names generalizing location with
  | nil =>
    rw [advance, advance, hat]
    cases fs.root.at? location with
    | none | some => rfl
  | cons name rest ih =>
    rw [advance, advance, hat]
    cases fs.root.at? location with
    | none => rfl
    | some node =>
      cases node with
      | file | link =>
        rw [Option.map_some, Node.outline]
        rfl
      | directory entries =>
        rw [Option.map_some, Node.outline]
        simp only [Node.lookup_outlineEntries]
        by_cases hhere : name = "."
        · simp only [if_pos hhere]
          exact ih location
        · simp only [if_neg hhere]
          by_cases hup : name = ".."
          · simp only [if_pos hup]
            exact ih location.dropLast
          · simp only [if_neg hup]
            split
            · rfl
            · -- whatever stands under the name, its outline is of the same kind
              rcases entries.lookup name with - | (content | target | below)
              · rfl
              · exact ih (location ++ [name])
              · rfl
              · exact ih (location ++ [name])

theorem arrive_outline (links : Nat) (location : Location) (names : List String) :
    fs.outline.arrive links location names = (fs.arrive links location names).outline := by
  induction links generalizing location names with
  | zero =>
    unfold arrive
    rw [advance_outline]
    cases fs.advance location names with
    | reached | link | missing | failed => rfl
  | succ links ih =>
    unfold arrive
    rw [advance_outline]
    cases fs.advance location names with
    | reached | missing | failed => rfl
    | link location target rest => exact ih _ _

theorem follow_outline (links : Nat) (location : Location) (names : List String) :
    fs.outline.follow links location names
      = (fs.follow links location names).map (Prod.map id Node.outline) := by
  rw [follow, follow, arrive_outline]
  cases fs.arrive links location names with
  | found | vacant | failed => rfl

/-- **A path leads to the same location in a tree and in its outline.** -/
theorem resolve_outline (path : String) :
    fs.outline.resolve path = (fs.resolve path).map (Prod.map id Node.outline) := by
  rw [resolve, resolve]
  by_cases hempty : path = ""
  · rw [if_pos hempty, if_pos hempty]
    rfl
  · rw [if_neg hempty, if_neg hempty]
    by_cases hnul : '\x00' ∈ path.toList
    · rw [if_pos hnul, if_pos hnul]
      rfl
    · rw [if_neg hnul, if_neg hnul]
      split
      · rfl
      · exact fs.follow_outline maxLinks (startOf fs.workingDirectory path) (Path.names path)

end FileSystem

theorem scriptsBelow_outline (fs : FileSystem) (config : Configuration) (root : String) :
    scriptsBelow fs.outline config root = scriptsBelow fs config root := by
  rw [scriptsBelow, scriptsBelow, FileSystem.resolve_outline]
  rcases fs.resolve root with failure | ⟨location, content | target | entries⟩
  · rfl
  · simp only [Except.map, Prod.map, Node.outline]
  · simp only [Except.map, Prod.map, Node.outline]
  · have hfiles := Node.files_outline (.directory entries)
    rw [Node.outline] at hfiles
    simp only [Except.map, Prod.map, Node.outline, hfiles]

/-! ### Trees that differ in one file -/

namespace FileSystem

/-- Two file systems that differ at most in the text of the file at one location. -/
structure DiffersAt (location : Location) (fs fs' : FileSystem) : Prop where
  workingDirectory_eq : fs.workingDirectory = fs'.workingDirectory
  isFile : ∃ content, fs.root.at? location = some (.file content)
  isFile' : ∃ content, fs'.root.at? location = some (.file content)
  elsewhere : ∀ location', location' ≠ location →
    (fs.root.at? location').map Node.bare = (fs'.root.at? location').map Node.bare

variable {location : Location} {fs fs' : FileSystem}

/-- The outlines of such trees are alike. -/
theorem DiffersAt.outline_alike (h : DiffersAt location fs fs') : fs.outline.Alike fs'.outline where
  workingDirectory_eq := h.workingDirectory_eq
  root := by
    intro location'
    show (fs.root.outline.at? location').map Node.bare
      = (fs'.root.outline.at? location').map Node.bare
    rw [Node.at?_outline, Node.at?_outline]
    by_cases hlocation : location' = location
    · obtain ⟨content, hcontent⟩ := h.isFile
      obtain ⟨content', hcontent'⟩ := h.isFile'
      rw [hlocation, hcontent, hcontent']
      simp only [Option.map_some, Node.outline]
    · have helsewhere := congrArg (Option.map Node.outline) (h.elsewhere location' hlocation)
      -- it does not matter whether a node is emptied or stripped first
      simp only [Option.map_map] at helsewhere ⊢
      have hswap : Node.bare ∘ Node.outline = Node.outline ∘ Node.bare := funext Node.bare_outline
      rw [hswap, helsewhere]

/-- A path leads to the same location in both, or fails alike. -/
theorem DiffersAt.resolve_cases (h : DiffersAt location fs fs') (path : String) :
    (∃ failure, fs.resolve path = .error failure ∧ fs'.resolve path = .error failure) ∨
    ∃ place node node',
      fs.resolve path = .ok (place, node) ∧ fs'.resolve path = .ok (place, node') := by
  have hresolved := resolve_alike h.outline_alike path
  rw [resolve_outline, resolve_outline] at hresolved
  rcases hresult : fs.resolve path with failure | ⟨place, node⟩
  · rcases hresult' : fs'.resolve path with failure' | ⟨place', node'⟩
    · rw [hresult, hresult'] at hresolved
      cases hresolved
      exact .inl ⟨failure, rfl, rfl⟩
    · rw [hresult, hresult'] at hresolved
      cases hresolved
  · rcases hresult' : fs'.resolve path with failure' | ⟨place', node'⟩
    · rw [hresult, hresult'] at hresolved
      cases hresolved
    · rw [hresult, hresult'] at hresolved
      cases hresolved
      exact .inr ⟨place, node, node', rfl, rfl⟩

theorem DiffersAt.exists_resolve (h : DiffersAt location fs fs') {path : String} {place : Location}
    {node : Node} (hpath : fs.resolve path = .ok (place, node)) :
    ∃ node', fs'.resolve path = .ok (place, node') := by
  rcases h.resolve_cases path with ⟨failure, hfs, -⟩ | ⟨place', node₀, node', hfs, hfs'⟩
  · cases hpath.symm.trans hfs
  · cases hpath.symm.trans hfs
    exact ⟨node', hfs'⟩

theorem DiffersAt.pathExists_eq (h : DiffersAt location fs fs') (path : String) :
    fs'.pathExists path = fs.pathExists path := by
  rw [pathExists, pathExists]
  rcases h.resolve_cases path with ⟨failure, hfs, hfs'⟩ | ⟨place, node, node', hfs, hfs'⟩
  · rw [hfs, hfs']
  · rw [hfs, hfs']
    rfl

theorem DiffersAt.scriptsBelow_eq (h : DiffersAt location fs fs') (config : Configuration)
    (root : String) : scriptsBelow fs' config root = scriptsBelow fs config root := by
  rw [← scriptsBelow_outline fs', ← scriptsBelow_outline fs]
  exact scriptsBelow_eq_of_alike h.outline_alike

/-- **What is read at a path is the same in both**, unless it leads to the file in which they
differ. -/
theorem DiffersAt.readText_eq (h : DiffersAt location fs fs') (path : String)
    (hpath : ∀ node, fs.resolve path ≠ .ok (location, node)) :
    fs'.readText path = fs.readText path := by
  rw [readText, readText]
  rcases h.resolve_cases path with ⟨failure, hfs, hfs'⟩ | ⟨place, node, node', hfs, hfs'⟩
  · rw [hfs, hfs']
  · have hplace : place ≠ location := by
      rintro rfl
      exact hpath node hfs
    -- elsewhere the same kind of node stands in both trees, and the same text if it is a file
    have hbare := h.elsewhere place hplace
    rw [at?_of_resolve hfs, at?_of_resolve hfs'] at hbare
    have hnode : node.bare = node'.bare := Option.some.inj hbare
    rw [hfs, hfs']
    cases node with
    | file content =>
      cases node' with
      | file => rw [Node.file.inj hnode]
      | link | directory => cases hnode
    | link target =>
      cases node' with
      | link => rfl
      | file | directory => cases hnode
    | directory entries =>
      cases node' with
      | directory => rfl
      | file | link => cases hnode

/-- Paths that lead to the same location are the same to a reader. -/
theorem readText_eq_of_resolve {path path' : String} {node node' : Node}
    (h : fs.resolve path = .ok (location, node)) (h' : fs.resolve path' = .ok (location, node')) :
    fs.readText path = fs.readText path' := by
  have hnode : some node = some node' := (at?_of_resolve h).symm.trans (at?_of_resolve h')
  rw [readText, readText, h, h', Option.some.inj hnode]

end FileSystem

/-! ### Writing into a tree -/

namespace Node

theorem lookup_setEntry (name name' : String) (new : Node) (entries : List (String × Node)) :
    (setEntry name new entries).lookup name'
      = if name' = name then some new else entries.lookup name' := by
  induction entries with
  | nil => exact Catalogue.lookup_cons_eq_if name' (name, new) []
  | cons head entries ih =>
    obtain ⟨other, old⟩ := head
    rw [setEntry, Catalogue.lookup_cons_eq_if]
    -- the entry is set at its first place, which is the one that is looked up
    by_cases hother : other = name
    · rw [if_pos hother, Catalogue.lookup_cons_eq_if]
      subst hother
      by_cases hname : name' = other
      · simp only [if_pos hname]
      · simp only [if_neg hname]
    · rw [if_neg hother, Catalogue.lookup_cons_eq_if, ih]
      by_cases hname : name' = other
      · rw [if_pos hname, if_neg (hname ▸ hother), if_pos hname]
      · simp only [if_neg hname]

variable {node : Node} {location : Location} {content : ByteArray}

theorem at?_put (h : node.at? location = some (file content)) (new : Node) :
    (node.put location new).at? location = some new := by
  induction location generalizing node with
  | nil => cases node <;> exact at?_nil new
  | cons name names ih =>
    obtain ⟨entries, rfl⟩ := eq_directory_of_at?_cons h
    rw [at?] at h
    obtain ⟨below, hbelow, hfile⟩ := Option.bind_eq_some_iff.mp h
    rw [put, at?, lookup_setEntry, if_pos rfl, hbelow]
    exact ih hfile

/-- Elsewhere the same stands after a file has been written. -/
theorem bare_at?_put (h : node.at? location = some (file content)) (content' : ByteArray)
    {location' : Location} (hne : location' ≠ location) :
    ((node.put location (file content')).at? location').map bare
      = (node.at? location').map bare := by
  induction location generalizing node location' with
  | nil =>
    rw [at?_nil] at h
    obtain rfl := Option.some.inj h
    obtain ⟨name, names, rfl⟩ := List.exists_cons_of_ne_nil hne
    rfl
  | cons name names ih =>
    obtain ⟨entries, rfl⟩ := eq_directory_of_at?_cons h
    rw [at?] at h
    obtain ⟨below, hbelow, hfile⟩ := Option.bind_eq_some_iff.mp h
    cases location' with
    | nil =>
      rw [at?_nil, at?_nil, put]
      rfl
    | cons name' names' =>
      rw [put, at?, at?, lookup_setEntry]
      by_cases hname : name' = name
      · subst hname
        have hnames : names' ≠ names := fun heq => hne (congrArg _ heq)
        rw [if_pos rfl, hbelow]
        exact ih hfile hnames
      · rw [if_neg hname]

/-- Putting a node in the place of one that is alike makes the whole alike. -/
theorem alike_put {old new : Node} (h : node.at? location = some old) (hnew : old.Alike new) :
    node.Alike (node.put location new) := by
  induction location generalizing node with
  | nil =>
    rw [at?_nil] at h
    obtain rfl := Option.some.inj h
    cases node <;> exact hnew
  | cons name names ih =>
    obtain ⟨entries, rfl⟩ := eq_directory_of_at?_cons h
    rw [at?] at h
    obtain ⟨below, hbelow, hold⟩ := Option.bind_eq_some_iff.mp h
    intro location'
    cases location' with
    | nil => rfl
    | cons name' names' =>
      rw [put, at?, at?, lookup_setEntry]
      by_cases hname : name' = name
      · subst hname
        rw [if_pos rfl, hbelow]
        exact ih hold names'
      · rw [if_neg hname]

end Node

/-- **The entries of a directory may stand in any order**: the walk lists the same scripts after they
have been rearranged, wherever the directory is. -/
theorem ListsScripts.of_perm {fs : FileSystem} {config : Configuration} {root : String}
    {paths : List String} (h : ListsScripts fs config root paths) {location : Location}
    {entries entries' : List (String × Node)}
    (hentries : fs.root.at? location = some (.directory entries)) (hperm : entries.Perm entries')
    (hnames : (entries.map (·.1)).Nodup) :
    scriptsBelow (fs.put location (.directory entries')) config root = paths :=
  h.of_alike _ ⟨rfl, Node.alike_put hentries (.of_perm hperm hnames)⟩

/-- **Writing a file changes the tree there and nowhere else.** -/
theorem FileSystem.differsAt_put {fs : FileSystem} {location : Location} {content : ByteArray}
    (h : fs.root.at? location = some (.file content)) (content' : ByteArray) :
    DiffersAt location fs (fs.put location (.file content')) where
  workingDirectory_eq := rfl
  isFile := ⟨content, h⟩
  isFile' := ⟨content', Node.at?_put h _⟩
  elsewhere := fun _ hne => (Node.bare_at?_put h content' hne).symm

end DialogueScript
