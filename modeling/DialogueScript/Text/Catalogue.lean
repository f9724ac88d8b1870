/-
# Catalogues

A catalogue lists values under distinct names in the order of the names' UTF-8 bytes.  The usage
counts of a report, the files of a directory and a list of distinct names are catalogues.  The order
is part of the type, so a catalogue is determined by what it finds under each name
(`Catalogue.ext_find?`), whatever the order in which it was built.

The only operation that changes one is `alter`, and `find?_alter` says what it changes.
-/
import DialogueScript.Text.Bytes

namespace DialogueScript

/-- Values under names that increase strictly in byte order. -/
@[ext] structure Catalogue (α : Type) where
  entries : List (String × α)
  increasing : entries.Pairwise fun a b => ByteOrder a.1 b.1

namespace Catalogue

variable {α : Type}

instance [DecidableEq α] : DecidableEq (Catalogue α) := fun c d =>
  decidable_of_iff (c.entries = d.entries) Catalogue.ext_iff.symm

/-- The catalogue without entries. -/
def empty : Catalogue α := ⟨[], .nil⟩

/-! ### Looking up and altering -/

/-- Changes the value under `name`, which `change` computes from the value that is there, if any. -/
def alterEntries (name : String) (change : Option α → α) :
    List (String × α) → List (String × α)
  | [] => [(name, change none)]
  | (other, value) :: rest =>
    if ByteOrder name other then (name, change none) :: (other, value) :: rest
    else if ByteOrder other name then (other, value) :: alterEntries name change rest
    else (name, change (some value)) :: rest

theorem mem_alterEntries {name : String} {change : Option α → α} {entries : List (String × α)}
    {entry : String × α} (h : entry ∈ alterEntries name change entries) :
    entry.1 = name ∨ entry ∈ entries := by
  induction entries with
  | nil => exact .inl (congrArg Prod.fst (List.mem_singleton.mp h))
  | cons head rest ih =>
    rw [alterEntries] at h
    split at h
    · exact (List.mem_cons.mp h).imp (congrArg Prod.fst) id
    · split at h
      · rcases List.mem_cons.mp h with h | h
        · exact .inr (h ▸ List.mem_cons_self)
        · exact (ih h).imp id (List.mem_cons_of_mem _)
      · exact (List.mem_cons.mp h).imp (congrArg Prod.fst) (List.mem_cons_of_mem _)

theorem increasing_alterEntries {name : String} {change : Option α → α}
    {entries : List (String × α)} (h : entries.Pairwise fun a b => ByteOrder a.1 b.1) :
    (alterEntries name change entries).Pairwise fun a b => ByteOrder a.1 b.1 := by
  induction entries with
  | nil => exact List.pairwise_singleton ..
  | cons head rest ih =>
    obtain ⟨hhead, hrest⟩ := List.pairwise_cons.mp h
    rw [alterEntries]
    split
    · next hlt =>
      refine List.pairwise_cons.mpr ⟨fun entry hentry => ?_, h⟩
      rcases List.mem_cons.mp hentry with rfl | hentry
      · exact hlt
      · exact hlt.trans (hhead entry hentry)
    · next hnot =>
      split
      · next hgt =>
        refine List.pairwise_cons.mpr ⟨fun entry hentry => ?_, ih hrest⟩
        rcases mem_alterEntries hentry with hname | hentry
        · exact hname ▸ hgt
        · exact hhead entry hentry
      · next hnot' =>
        have hname : name = head.1 := ByteOrder.eq_of_not hnot hnot'
        exact List.pairwise_cons.mpr ⟨fun entry hentry => hname ▸ hhead entry hentry, hrest⟩

/-- The catalogue with the value under `name` changed, or added if there is none. -/
def alter (name : String) (change : Option α → α) (c : Catalogue α) : Catalogue α :=
  ⟨alterEntries name change c.entries, increasing_alterEntries c.increasing⟩

/-- The catalogue with `value` under `name`. -/
def insert (name : String) (value : α) (c : Catalogue α) : Catalogue α :=
  c.alter name fun _ => value

/-- The catalogue of a list of named values; of two values under one name the first counts. -/
def ofList (list : List (String × α)) : Catalogue α :=
  list.foldr (fun (name, value) c => c.insert name value) empty

/-- The value under `name`, if there is one. -/
def find? (c : Catalogue α) (name : String) : Option α :=
  c.entries.lookup name

/-- The names, in byte order. -/
def names (c : Catalogue α) : List String :=
  c.entries.map (·.1)

/-! ### The view through `find?` -/

@[simp] theorem find?_empty (name : String) : (empty : Catalogue α).find? name = none := rfl

theorem lookup_cons_eq_if (name : String) (head : String × α) (rest : List (String × α)) :
    (head :: rest).lookup name = if name = head.1 then some head.2 else rest.lookup name := by
  rw [List.lookup_cons]
  by_cases h : name = head.1
  · simp [h]
  · rw [if_neg h, beq_false_of_ne h]

/-- A name that stands before all names of a list is not found in it. -/
theorem lookup_eq_none_of_before {name : String} {entries : List (String × α)}
    (h : ∀ entry ∈ entries, ByteOrder name entry.1) : entries.lookup name = none := by
  refine List.lookup_eq_none_iff.mpr fun entry hentry => ?_
  refine bne_iff_ne.mpr fun heq => ?_
  exact ByteOrder.irrefl _ (heq ▸ h entry hentry)

/-- The entries are what is found. -/
theorem mem_entries_iff {c : Catalogue α} {name : String} {value : α} :
    (name, value) ∈ c.entries ↔ c.find? name = some value := by
  obtain ⟨entries, hinc⟩ := c
  simp only [find?]
  induction entries with
  | nil => simp
  | cons head rest ih =>
    obtain ⟨hhead, hrest⟩ := List.pairwise_cons.mp hinc
    rw [lookup_cons_eq_if, List.mem_cons, ih hrest]
    by_cases hname : name = head.1
    · -- the name of the first entry stands before all others, so it does not come again
      subst hname
      rw [if_pos rfl, lookup_eq_none_of_before hhead, Option.some.injEq]
      refine ⟨fun h => h.elim (fun heq => (congrArg Prod.snd heq).symm) nofun, fun h => .inl ?_⟩
      exact Prod.ext rfl h.symm
    · rw [if_neg hname]
      exact ⟨fun h => h.resolve_left fun heq => hname (congrArg Prod.fst heq), .inr⟩

theorem mem_names_iff {c : Catalogue α} {name : String} :
    name ∈ c.names ↔ ∃ value, c.find? name = some value := by
  simp only [names, List.mem_map, Prod.exists, exists_and_right, exists_eq_right, mem_entries_iff]

/-- **What `alter` changes**: the value under its name, and nothing else. -/
theorem find?_alter (name name' : String) (change : Option α → α) (c : Catalogue α) :
    (c.alter name change).find? name'
      = if name' = name then some (change (c.find? name)) else c.find? name' := by
  obtain ⟨entries, hinc⟩ := c
  simp only [find?, alter]
  induction entries with
  | nil => simp [alterEntries, lookup_cons_eq_if]
  | cons head rest ih =>
    obtain ⟨hhead, hrest⟩ := List.pairwise_cons.mp hinc
    have ih := ih hrest
    rw [alterEntries]
    split
    · next hlt =>
      have hnone : List.lookup name (head :: rest) = none := by
        refine lookup_eq_none_of_before fun entry hentry => ?_
        rcases List.mem_cons.mp hentry with rfl | hentry
        · exact hlt
        · exact hlt.trans (hhead entry hentry)
      rw [hnone, lookup_cons_eq_if]
    · next hnot =>
      split
      · next hgt =>
        have hne : name ≠ head.1 := fun h => ByteOrder.irrefl head.1 (h ▸ hgt)
        simp only [lookup_cons_eq_if, ih, if_neg hne]
        by_cases h : name' = head.1
        · rw [if_pos h, if_pos h, if_neg (h ▸ hne.symm)]
        · rw [if_neg h, if_neg h]
      · next hnot' =>
        have hname : name = head.1 := ByteOrder.eq_of_not hnot hnot'
        subst hname
        by_cases h : name' = head.1 <;> simp [lookup_cons_eq_if, h]

theorem find?_insert (name name' : String) (value : α) (c : Catalogue α) :
    (c.insert name value).find? name' = if name' = name then some value else c.find? name' :=
  find?_alter name name' _ c

/-- A catalogue finds what its list does, where the first of two values under one name counts. -/
theorem find?_ofList (list : List (String × α)) (name : String) :
    (ofList list).find? name = list.lookup name := by
  induction list with
  | nil => rfl
  | cons head rest ih =>
    rw [lookup_cons_eq_if, ← ih]
    exact find?_insert head.1 name head.2 (ofList rest)

/-- **Order carries no information**: catalogues that find the same values are equal. -/
theorem ext_find? {c d : Catalogue α} (h : ∀ name, c.find? name = d.find? name) : c = d := by
  obtain ⟨cs, hcs⟩ := c
  obtain ⟨ds, hds⟩ := d
  simp only [find?] at h
  suffices cs = ds by subst this; rfl
  induction cs generalizing ds with
  | nil =>
    cases ds with
    | nil => rfl
    | cons head rest => simpa [lookup_cons_eq_if] using h head.1
  | cons c cs ih =>
    obtain ⟨hc, hcs'⟩ := List.pairwise_cons.mp hcs
    cases ds with
    | nil => simpa [lookup_cons_eq_if] using h c.1
    | cons d ds =>
      obtain ⟨hd, hds'⟩ := List.pairwise_cons.mp hds
      have hfst : c.1 = d.1 := by
        refine ByteOrder.eq_of_not (fun hlt => ?_) fun hlt => ?_
        · have hnone : List.lookup c.1 (d :: ds) = none :=
            lookup_eq_none_of_before fun entry hentry => by
              rcases List.mem_cons.mp hentry with rfl | hentry
              · exact hlt
              · exact hlt.trans (hd entry hentry)
          simpa [lookup_cons_eq_if, hnone] using h c.1
        · have hnone : List.lookup d.1 (c :: cs) = none :=
            lookup_eq_none_of_before fun entry hentry => by
              rcases List.mem_cons.mp hentry with rfl | hentry
              · exact hlt
              · exact hlt.trans (hc entry hentry)
          simpa [lookup_cons_eq_if, hnone] using (h d.1).symm
      have hsnd : c.2 = d.2 := by simpa [lookup_cons_eq_if, hfst] using h c.1
      have hhead : c = d := Prod.ext hfst hsnd
      subst hhead
      congr 1
      refine ih hcs' ds hds' fun name => ?_
      by_cases hname : name = c.1
      · subst hname
        rw [lookup_eq_none_of_before hc, lookup_eq_none_of_before hd]
      · simpa [lookup_cons_eq_if, hname] using h name

/-- The entries of a catalogue give it back. -/
theorem ofList_entries (c : Catalogue α) : ofList c.entries = c :=
  ext_find? fun name => find?_ofList c.entries name

end Catalogue

end DialogueScript
