/-
# Pieces between separators

Texts are cut at a separator twice: a script at its line ends, and a parameter section at its
commas.  A piece can be described without cutting.  `PieceAt sep text place piece` says that `piece`
stands in `text` between two separators or ends of the text, and that `place` is one more than the
number of separators before it.

The numbered pieces that cutting gives are exactly those (`mem_zipIdx_splitOn`), in increasing order
of their places (`pairwise_zipIdx`).
-/
import DialogueScript.Text.Bytes

namespace DialogueScript

variable {α : Type} [DecidableEq α] {sep : α}

/-- There is one piece more than there are separators. -/
theorem length_splitOn (sep : α) (text : List α) :
    (text.splitOn sep).length = text.count sep + 1 := by
  induction text with
  | nil => simp
  | cons c text ih =>
    rw [List.splitOn_cons_eq_if_modifyHead, List.count_cons]
    split
    · simp [ih]
    · simp [ih]

omit [DecidableEq α] in
/-- What stands in joined pieces stands in one of them or between them. -/
theorem mem_intercalate {c : α} {pieces : List (List α)} (h : c ∈ [sep].intercalate pieces) :
    c = sep ∨ ∃ piece ∈ pieces, c ∈ piece := by
  induction pieces with
  | nil => simp at h
  | cons piece pieces ih =>
    rcases pieces with - | ⟨next, pieces⟩
    · exact .inr ⟨piece, List.mem_cons_self, by simpa using h⟩
    · rw [List.intercalate_cons_cons, List.mem_append, List.mem_append, List.mem_singleton] at h
      rcases h with (hpiece | hsep) | hrest
      · exact .inr ⟨piece, List.mem_cons_self, hpiece⟩
      · exact .inl hsep
      · refine (ih hrest).imp id ?_
        rintro ⟨other, hother, hc⟩
        exact ⟨other, List.mem_cons_of_mem _ hother, hc⟩

/-! ### Where a piece stands -/

/-- `piece` stands in `text` between two separators or ends of the text; counted from one, it is the
piece with this place. -/
def PieceAt (sep : α) (text : List α) (place : Nat) (piece : List α) : Prop :=
  ∃ before after, text = before ++ piece ++ after ∧ sep ∉ piece ∧
    (before = [] ∨ before.getLast? = some sep) ∧ (after = [] ∨ after.head? = some sep) ∧
    place = before.count sep + 1

/-- A piece between separators is cut out, behind as many pieces as there are separators before it,
and the other pieces do not depend on what it is. -/
theorem exists_splitOn_of_bounds {before after : List α}
    (hbefore : before = [] ∨ before.getLast? = some sep)
    (hafter : after = [] ∨ after.head? = some sep) :
    ∃ above below, above.length = before.count sep ∧
      ∀ piece, sep ∉ piece → (before ++ piece ++ after).splitOn sep = above ++ piece :: below := by
  -- cut behind the piece first, then before it
  have hhead : ∃ below, ∀ piece, sep ∉ piece → (piece ++ after).splitOn sep = piece :: below := by
    rcases hafter with rfl | hafter
    · exact ⟨[], fun piece hpiece => by rw [List.append_nil, List.splitOn_eq_singleton hpiece]⟩
    · obtain ⟨tail, rfl⟩ := List.head?_eq_some_iff.mp hafter
      exact ⟨tail.splitOn sep, fun piece hpiece =>
        List.splitOn_append_cons_self_of_not_mem hpiece tail⟩
  obtain ⟨below, hbelow⟩ := hhead
  rcases hbefore with rfl | hbefore
  · exact ⟨[], below, rfl, fun piece hpiece => hbelow piece hpiece⟩
  · obtain ⟨front, rfl⟩ := List.getLast?_eq_some_iff.mp hbefore
    refine ⟨front.splitOn sep, below, ?_, fun piece hpiece => ?_⟩
    · rw [length_splitOn, List.count_append, List.count_singleton_self]
    · rw [← hbelow piece hpiece, ← List.splitOn_append_cons_self]
      simp

theorem getElem?_splitOn_of_bounds {before piece after : List α} (hpiece : sep ∉ piece)
    (hbefore : before = [] ∨ before.getLast? = some sep)
    (hafter : after = [] ∨ after.head? = some sep) :
    ((before ++ piece ++ after).splitOn sep)[before.count sep]? = some piece := by
  obtain ⟨above, below, hlength, hcut⟩ := exists_splitOn_of_bounds hbefore hafter
  rw [hcut piece hpiece, ← hlength]
  simp

/-- The first piece of a text that does not start with a separator starts where the text does. -/
theorem PieceAt.cons_first {c : α} {text piece : List α} (h : PieceAt sep text 1 piece)
    (hc : c ≠ sep) : PieceAt sep (c :: text) 1 (c :: piece) := by
  obtain ⟨before, after, htext, hpiece, hbefore, hafter, hplace⟩ := h
  -- only a separator may end what stands before a piece, and there is none
  obtain rfl : before = [] := by
    rcases hbefore with rfl | hbefore
    · rfl
    · have hmem : sep ∈ before := List.mem_of_getLast? hbefore
      have hpos := List.count_pos_iff.mpr hmem
      omega
  refine ⟨[], after, by rw [htext]; rfl, ?_, .inl rfl, hafter, rfl⟩
  exact List.not_mem_cons_of_ne_of_not_mem (Ne.symm hc) hpiece

/-- A piece that is not the first stays as it is when the text gets a character in front, and so
does the first if that character is a separator. -/
theorem PieceAt.cons {c : α} {text piece : List α} {place : Nat} (h : PieceAt sep text place piece)
    (hc : c = sep ∨ 1 < place) : PieceAt sep (c :: text) (place + [c].count sep) piece := by
  obtain ⟨before, after, htext, hpiece, hbefore, hafter, hplace⟩ := h
  refine ⟨c :: before, after, by rw [htext]; rfl, hpiece, .inr ?_, hafter, ?_⟩
  · rcases hbefore with rfl | hbefore
    · -- nothing stands before the piece, so it is the first
      have hsep : c = sep := hc.resolve_right (by simp [hplace])
      rw [hsep, List.getLast?_singleton]
    · rw [List.getLast?_cons, hbefore, Option.getD_some]
  · have hcount : (c :: before).count sep = [c].count sep + before.count sep := by
      rw [← List.count_append, List.singleton_append]
    omega

/-- A piece found by cutting stands between separators, behind as many of them as there are pieces
before it. -/
theorem pieceAt_of_getElem?_splitOn {text piece : List α} {k : Nat}
    (h : (text.splitOn sep)[k]? = some piece) : PieceAt sep text (k + 1) piece := by
  induction text generalizing k piece with
  | nil =>
    obtain ⟨rfl, rfl⟩ : k = 0 ∧ piece = [] := by
      cases k with
      | zero => simpa using h.symm
      | succ k => simp at h
    exact ⟨[], [], rfl, List.not_mem_nil, .inl rfl, .inl rfl, rfl⟩
  | cons c text ih =>
    rw [List.splitOn_cons_eq_if_modifyHead] at h
    split at h
    · next hc =>
      obtain rfl : c = sep := eq_of_beq hc
      cases k with
      | zero =>
        obtain rfl : piece = [] := by simpa using h.symm
        exact ⟨[], c :: text, rfl, List.not_mem_nil, .inl rfl, .inr rfl, rfl⟩
      | succ k =>
        have hrest : PieceAt c text (k + 1) piece := ih (by simpa using h)
        simpa using hrest.cons (.inl rfl)
    · next hc =>
      have hne : c ≠ sep := fun heq => hc (beq_iff_eq.mpr heq)
      obtain ⟨first, rest, hpieces⟩ := List.exists_cons_of_ne_nil (List.splitOn_ne_nil sep text)
      rw [hpieces, List.modifyHead_cons] at h
      cases k with
      | zero =>
        obtain rfl : piece = c :: first := by simpa using h.symm
        have hfirst : PieceAt sep text 1 first := ih (by rw [hpieces, List.getElem?_cons_zero])
        exact hfirst.cons_first hne
      | succ k =>
        have hnext : (text.splitOn sep)[k + 1]? = some piece := by
          rwa [hpieces, List.getElem?_cons_succ, ← List.getElem?_cons_succ]
        have hlater := (ih hnext).cons (c := c) (.inr (by omega))
        rwa [List.count_singleton, if_neg hc, Nat.add_zero] at hlater

/-- A piece stands in the text in one stretch. -/
theorem isInfix_of_mem_splitOn {text piece : List α} (h : piece ∈ text.splitOn sep) :
    piece <:+: text := by
  obtain ⟨k, hk⟩ := List.mem_iff_getElem?.mp h
  obtain ⟨before, after, htext, -⟩ := pieceAt_of_getElem?_splitOn hk
  exact ⟨before, after, htext.symm⟩

/-- No piece contains the separator. -/
theorem not_mem_of_mem_splitOn {text piece : List α} (h : piece ∈ text.splitOn sep) :
    sep ∉ piece := by
  obtain ⟨k, hk⟩ := List.mem_iff_getElem?.mp h
  obtain ⟨before, after, -, hpiece, -⟩ := pieceAt_of_getElem?_splitOn hk
  exact hpiece

/-- **Cutting finds the pieces**: the pieces that cutting gives, numbered from one, are those that
stand between separators, each with its place. -/
theorem mem_zipIdx_splitOn {text piece : List α} {place : Nat} :
    (piece, place) ∈ (text.splitOn sep).zipIdx 1 ↔ PieceAt sep text place piece := by
  rw [List.mk_mem_zipIdx_iff_le_and_getElem?_sub]
  constructor
  · rintro ⟨hplace, hpiece⟩
    obtain ⟨k, rfl⟩ := Nat.exists_eq_add_of_le' hplace
    exact pieceAt_of_getElem?_splitOn hpiece
  · rintro ⟨before, after, rfl, hpiece, hbefore, hafter, rfl⟩
    exact ⟨Nat.le_add_left _ _, getElem?_splitOn_of_bounds hpiece hbefore hafter⟩

/-- Numbering gives increasing numbers. -/
theorem pairwise_zipIdx {β : Type} (list : List β) (start : Nat) :
    (list.zipIdx start).Pairwise fun a b => a.2 < b.2 := by
  induction list generalizing start with
  | nil => exact .nil
  | cons head list ih =>
    refine List.pairwise_cons.mpr ⟨fun entry hentry => ?_, ih (start + 1)⟩
    exact List.le_snd_of_mem_zipIdx hentry

end DialogueScript
