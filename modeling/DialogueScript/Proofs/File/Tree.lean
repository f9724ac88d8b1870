/-
# Trees that hold the same

A directory lists its entries in the order in which they were created, but nothing that is found in a
tree depends on it: two trees are alike if the same files, links and directories stand at the same
locations (`Node.Alike`), as they do if the same entries are listed in different orders
(`Alike.of_perm`).  Following a path leads to the same location in both, to nodes that are alike
again (`resolve_alike`): one name after the other (`advance_alike`), one link after the other
(`arrive_alike`).

Where a path leads is also where its node stands in the tree (`at?_of_resolve`).
-/
import DialogueScript.File.Tree
import DialogueScript.Text.Catalogue

namespace DialogueScript

namespace Node

/-! ### Locations -/

/-- A location can be followed in two parts. -/
theorem at?_append (node : Node) (before after : Location) :
    node.at? (before ++ after) = (node.at? before).bind fun below => below.at? after := by
  induction before generalizing node with
  | nil => cases node <;> rfl
  | cons name before ih =>
    cases node with
    | file | link => rfl
    | directory entries =>
      rw [List.cons_append, at?, at?]
      rcases entries.lookup name with - | below
      · rfl
      · exact ih below

theorem at?_nil (node : Node) : node.at? [] = some node := by
  cases node <;> rfl

/-- Only a directory has something below it. -/
theorem eq_directory_of_at?_cons {node below : Node} {name : String} {names : Location}
    (h : node.at? (name :: names) = some below) : ∃ entries, node = .directory entries := by
  cases node with
  | file | link => cases h
  | directory entries => exact ⟨entries, rfl⟩

theorem at?_singleton (entries : List (String × Node)) (name : String) :
    (directory entries).at? [name] = entries.lookup name := by
  rw [at?]
  rcases entries.lookup name with - | below
  · rfl
  · exact at?_nil below

/-! ### Nodes that are alike -/

/-- A node without what is below it. -/
def bare : Node → Node
  | directory _ => directory []
  | node => node

/-- At every location below them, two nodes have the same file, the same link, a directory each, or
nothing; the order of the entries may differ. -/
def Alike (node node' : Node) : Prop :=
  ∀ location, (node.at? location).map bare = (node'.at? location).map bare

variable {node node' : Node}

theorem Alike.bare_eq (h : node.Alike node') : node.bare = node'.bare := by
  have hroot := h []
  rw [at?_nil, at?_nil] at hroot
  exact Option.some.inj hroot

/-- What is below nodes that are alike, is alike. -/
theorem Alike.below (h : node.Alike node') {location : Location} {below : Node}
    (hbelow : node.at? location = some below) :
    ∃ below', node'.at? location = some below' ∧ below.Alike below' := by
  have hlocation := h location
  rw [hbelow, Option.map_some] at hlocation
  obtain ⟨below', hbelow', -⟩ := Option.map_eq_some_iff.mp hlocation.symm
  refine ⟨below', hbelow', fun further => ?_⟩
  have hfurther := h (location ++ further)
  rwa [at?_append, at?_append, hbelow, hbelow'] at hfurther

theorem Alike.eq_none (h : node.Alike node') {location : Location}
    (hnone : node.at? location = none) : node'.at? location = none := by
  have hlocation := h location
  rw [hnone, Option.map_none] at hlocation
  exact Option.map_eq_none_iff.mp hlocation.symm

theorem Alike.symm (h : node.Alike node') : node'.Alike node :=
  fun location => (h location).symm

/-- What can be alike: the same file or link twice, or two directories. -/
theorem Alike.cases (h : node.Alike node') :
    (∃ content, node = file content ∧ node' = file content) ∨
    (∃ target, node = link target ∧ node' = link target) ∨
    ∃ entries entries', node = directory entries ∧ node' = directory entries' := by
  have hbare := h.bare_eq
  cases node with
  | file content =>
    cases node' with
    | file => exact .inl ⟨content, rfl, hbare.symm⟩
    | link | directory => cases hbare
  | link target =>
    cases node' with
    | link => exact .inr (.inl ⟨target, rfl, hbare.symm⟩)
    | file | directory => cases hbare
  | directory entries =>
    cases node' with
    | directory entries' => exact .inr (.inr ⟨entries, entries', rfl, rfl⟩)
    | file | link => cases hbare

theorem lookup_eq_of_perm {entries entries' : List (String × Node)} (h : entries.Perm entries')
    (hnames : (entries.map (·.1)).Nodup) (name : String) :
    entries.lookup name = entries'.lookup name := by
  induction h with
  | nil => rfl
  | cons head _ ih =>
    rw [Catalogue.lookup_cons_eq_if, Catalogue.lookup_cons_eq_if, ih (List.nodup_cons.mp hnames).2]
  | swap first second rest =>
    have hne : second.1 ≠ first.1 := (List.pairwise_cons.mp hnames).1 _ List.mem_cons_self
    simp only [Catalogue.lookup_cons_eq_if]
    split
    · next hfirst => rw [if_neg (hfirst ▸ hne)]
    · rfl
  | trans hperm _ ih ih' =>
    rw [ih hnames, ih' ((hperm.map _).nodup_iff.mp hnames)]

/-- The order in which the entries of a directory were created is of no account. -/
theorem Alike.of_perm {entries entries' : List (String × Node)} (h : entries.Perm entries')
    (hnames : (entries.map (·.1)).Nodup) : (directory entries).Alike (directory entries') := by
  intro location
  cases location with
  | nil => rfl
  | cons name names => rw [at?, at?, lookup_eq_of_perm h hnames name]

end Node

open Node

namespace FileSystem

/-- Two file systems are alike if their trees are, seen from the same working directory. -/
structure Alike (fs fs' : FileSystem) : Prop where
  workingDirectory_eq : fs.workingDirectory = fs'.workingDirectory
  root : fs.root.Alike fs'.root

/-! ### Following a path -/

/-- Walks along names that stop for the same reason at the same place. -/
inductive StopAlike : Stop → Stop → Prop
  | reached (location : Location) {node node' : Node} : node.Alike node' →
      StopAlike (.reached location node) (.reached location node')
  | refl (stop : Stop) : StopAlike stop stop

/-- Paths that lead to the same place. -/
inductive ArrivalAlike : Arrival → Arrival → Prop
  | found (location : Location) {node node' : Node} : node.Alike node' →
      ArrivalAlike (.found location node) (.found location node')
  | refl (arrival : Arrival) : ArrivalAlike arrival arrival

variable {fs fs' : FileSystem}

/-- One name after the other leads to the same place. -/
theorem advance_alike (h : fs.Alike fs') (location : Location) (names : List String) :
    StopAlike (fs.advance location names) (fs'.advance location names) := by
  induction names generalizing location with
  | nil =>
    rcases hat : fs.root.at? location with - | node
    · simp only [advance, hat, h.root.eq_none hat]
      exact .refl _
    · obtain ⟨node', hat', hnode⟩ := h.root.below hat
      simp only [advance, hat, hat']
      exact .reached location hnode
  | cons name rest ih =>
    rcases hat : fs.root.at? location with - | node
    · simp only [advance, hat, h.root.eq_none hat]
      exact .refl _
    · obtain ⟨node', hat', hnode⟩ := h.root.below hat
      rcases hnode.cases with ⟨content, rfl, rfl⟩ | ⟨target, rfl, rfl⟩ | ⟨entries, entries', rfl, rfl⟩
      · simp only [advance, hat, hat']
        exact .refl _
      · simp only [advance, hat, hat']
        exact .refl _
      · simp only [advance, hat, hat']
        split
        · exact ih location
        · split
          · exact ih location.dropLast
          · split
            · exact .refl _
            · -- the entry under the name, if there is one, is alike in both directories
              rcases hentry : entries.lookup name with - | entry
              · have hentry' := hnode.eq_none ((at?_singleton entries name).trans hentry)
                rw [at?_singleton] at hentry'
                rw [hentry']
                exact .refl _
              · obtain ⟨entry', hentry', halike⟩ :=
                  hnode.below ((at?_singleton entries name).trans hentry)
                rw [at?_singleton] at hentry'
                rw [hentry']
                rcases halike.cases with
                  ⟨content, rfl, rfl⟩ | ⟨target, rfl, rfl⟩ | ⟨entries, entries', rfl, rfl⟩
                · exact ih _
                · exact .refl _
                · exact ih _

/-- One link after the other leads to the same place. -/
theorem arrive_alike (h : fs.Alike fs') (links : Nat) (location : Location)
    (names : List String) :
    ArrivalAlike (fs.arrive links location names) (fs'.arrive links location names) := by
  induction links generalizing location names with
  | zero =>
    have hstop := advance_alike h location names
    unfold arrive
    generalize fs.advance location names = stop, fs'.advance location names = stop' at hstop ⊢
    cases hstop with
    | reached location hnode => exact .found location hnode
    | refl => exact .refl _
  | succ links ih =>
    have hstop := advance_alike h location names
    unfold arrive
    generalize fs.advance location names = stop, fs'.advance location names = stop' at hstop ⊢
    cases hstop with
    | reached location hnode => exact .found location hnode
    | refl =>
      cases stop with
      | link location target rest => exact ih _ _
      | reached | missing | failed => exact .refl _

/-- Paths that are resolved to the same place, or fail alike. -/
inductive ResolvedAlike :
    Except AccessFailure (Location × Node) → Except AccessFailure (Location × Node) → Prop
  | found (location : Location) {node node' : Node} : node.Alike node' →
      ResolvedAlike (.ok (location, node)) (.ok (location, node'))
  | failed (failure : AccessFailure) : ResolvedAlike (.error failure) (.error failure)

theorem follow_alike (h : fs.Alike fs') (links : Nat) (location : Location)
    (names : List String) :
    ResolvedAlike (fs.follow links location names) (fs'.follow links location names) := by
  have harrival := arrive_alike h links location names
  unfold follow
  generalize fs.arrive links location names = arrival,
    fs'.arrive links location names = arrival' at harrival ⊢
  cases harrival with
  | found location hnode => exact .found location hnode
  | refl =>
    cases arrival with
    | found location node => exact .found location fun _ => rfl
    | vacant | failed => exact .failed _

/-- **A path leads to the same place in file systems that are alike.** -/
theorem resolve_alike (h : fs.Alike fs') (path : String) :
    ResolvedAlike (fs.resolve path) (fs'.resolve path) := by
  rw [resolve, resolve, ← h.workingDirectory_eq]
  split
  · exact .failed _
  · split
    · exact .failed _
    · split
      · exact .failed _
      · exact follow_alike h _ _ _

/-! ### Where a path leads -/

theorem at?_of_advance {location location' : Location} {names : List String} {node : Node}
    (h : fs.advance location names = .reached location' node) :
    fs.root.at? location' = some node := by
  induction names generalizing location with
  | nil =>
    rw [advance] at h
    split at h
    · next hat =>
      obtain ⟨rfl, rfl⟩ := Stop.reached.inj h
      exact hat
    · cases h
  | cons name rest ih =>
    rw [advance] at h
    split at h
    · split at h
      · exact ih h
      · split at h
        · exact ih h
        · split at h
          · cases h
          · split at h
            · cases h
            · cases h
            · exact ih h
    · cases h

theorem at?_of_arrive {links : Nat} {location location' : Location} {names : List String}
    {node : Node} (h : fs.arrive links location names = .found location' node) :
    fs.root.at? location' = some node := by
  induction links generalizing location names with
  | zero =>
    unfold arrive at h
    split at h
    · next hreached =>
      obtain ⟨rfl, rfl⟩ := Arrival.found.inj h
      exact at?_of_advance hreached
    · cases h
    · cases h
    · cases h
  | succ links ih =>
    unfold arrive at h
    split at h
    · next hreached =>
      obtain ⟨rfl, rfl⟩ := Arrival.found.inj h
      exact at?_of_advance hreached
    · cases h
    · cases h
    · exact ih h

/-- The node to which a path leads stands in the tree. -/
theorem at?_of_resolve {path : String} {location : Location} {node : Node}
    (h : fs.resolve path = .ok (location, node)) : fs.root.at? location = some node := by
  rw [resolve] at h
  split at h
  · cases h
  · split at h
    · cases h
    · split at h
      · cases h
      · rw [follow] at h
        split at h
        · next harrive =>
          obtain ⟨rfl, rfl⟩ := Prod.mk.inj (Except.ok.inj h)
          exact at?_of_arrive harrive
        · cases h
        · cases h

end FileSystem

end DialogueScript
