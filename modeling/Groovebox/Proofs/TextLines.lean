import Groovebox.Text
import Mathlib.Data.List.Basic

/-!
# Deleting lines from a text

The lines of a text do not tell how they ended.  To delete some of them and leave the others as they
stand, the text is cut into `pieces`, which keep their line ends.  Pieces that are left after others
are deleted are still the pieces of what they make up (`pieces_flatten`), so that the lines of the
shorter text are the lines that were not deleted (`lines_keepLines`).
-/

namespace Groovebox

/-! ## Numbered entries -/

section Numbered

variable {α β : Type}

/-- The entries of a list whose numbers pass a test; they are numbered from a given number on. -/
def keepNumbered (keep : Nat → Bool) : Nat → List α → List α
  | _, [] => []
  | number, x :: rest =>
    if keep number then x :: keepNumbered keep (number + 1) rest
    else keepNumbered keep (number + 1) rest

theorem keepNumbered_sublist (keep : Nat → Bool) (number : Nat) (xs : List α) :
    List.Sublist (keepNumbered keep number xs) xs := by
  induction xs generalizing number with
  | nil => exact List.Sublist.slnil
  | cons x rest ih =>
    rw [keepNumbered]
    split
    · exact (ih (number + 1)).cons_cons x
    · exact (ih (number + 1)).cons x

theorem map_keepNumbered (f : α → β) (keep : Nat → Bool) (number : Nat) (xs : List α) :
    (keepNumbered keep number xs).map f = keepNumbered keep number (xs.map f) := by
  induction xs generalizing number with
  | nil => rfl
  | cons x rest ih =>
    simp only [keepNumbered, List.map_cons]
    split
    · rw [List.map_cons, ih]
    · exact ih (number + 1)

end Numbered

namespace Text

/-! ## Pieces -/

/-- The lines of a text with their line ends; joined they are the text. -/
def pieces : List Char → List (List Char)
  | [] => []
  | '\n' :: cs => ['\n'] :: pieces cs
  | c :: cs => match pieces cs with
    | [] => [[c]]
    | p :: ps => (c :: p) :: ps

/-- A line without its line end. -/
def withoutEnd : List Char → List Char
  | [] => []
  | ['\n'] => []
  | ['\r', '\n'] => []
  | c :: cs => c :: withoutEnd cs

theorem pieces_cons_of_ne {c : Char} (h : c ≠ '\n') (cs : List Char) :
    pieces (c :: cs) = match pieces cs with
      | [] => [[c]]
      | p :: ps => (c :: p) :: ps := by
  rw [pieces]
  exact h

theorem withoutEnd_cons {c : Char} (h : c ≠ '\n') {cs : List Char}
    (hcs : c = '\r' → cs ≠ ['\n']) : withoutEnd (c :: cs) = c :: withoutEnd cs := by
  rw [withoutEnd]
  · exact fun hc _ => h hc
  · exact hcs

/-- Nothing of a text is lost when it is cut. -/
theorem flatten_pieces (cs : List Char) : (pieces cs).flatten = cs := by
  induction cs with
  | nil => rfl
  | cons c cs ih =>
    by_cases hc : c = '\n'
    · rw [hc, pieces, List.flatten_cons, ih]
      rfl
    · rw [pieces_cons_of_ne hc]
      split
      · next hnil =>
        rw [hnil] at ih
        rw [← ih]
        rfl
      · next p ps hcons =>
        rw [hcons] at ih
        rw [List.flatten_cons, List.cons_append, ← List.flatten_cons, ih]

/-- The lines of a text are its pieces without their line ends. -/
theorem lines_eq_map_pieces (cs : List Char) : lines cs = (pieces cs).map withoutEnd := by
  fun_induction lines cs with
  | case1 => rfl
  | case2 cs ih => rw [pieces, List.map_cons, ih, withoutEnd]
  | case3 cs ih => simp [pieces, withoutEnd, ih]
  | case4 c cs hnl hcr hlines ih =>
    rw [hlines, eq_comm, List.map_eq_nil_iff] at ih
    have hc : c ≠ '\n' := fun h => hnl h
    rw [pieces_cons_of_ne hc, ih]
    simp [withoutEnd, hc]
  | case5 c cs hnl hcr l ls hlines ih =>
    have hc : c ≠ '\n' := fun h => hnl h
    rw [hlines] at ih
    rw [pieces_cons_of_ne hc]
    cases hpieces : pieces cs with
    | nil => simp [hpieces] at ih
    | cons p ps =>
      rw [hpieces, List.map_cons] at ih
      obtain ⟨hl, hls⟩ := List.cons.inj ih
      -- the text goes on with its first piece, which is no bare line end after a carriage return
      have hp : c = '\r' → p ≠ ['\n'] := by
        rintro rfl rfl
        have htext := flatten_pieces cs
        rw [hpieces, List.flatten_cons] at htext
        exact hcr ps.flatten rfl htext.symm
      dsimp only
      rw [List.map_cons, withoutEnd_cons hc hp, hl, hls]

/-! ## Pieces of a shorter text -/

/-- Texts that are cut where lines end: each is not empty and has a line feed at its end only, and
all but the last one have it. -/
structure CutAtEnds (ps : List (List Char)) : Prop where
  ne_nil : ∀ p ∈ ps, p ≠ []
  not_mem_dropLast : ∀ p ∈ ps, '\n' ∉ p.dropLast
  ends : ps.Pairwise fun p _ => p.getLast? = some '\n'

theorem cutAtEnds_nil : CutAtEnds [] where
  ne_nil _ h := absurd h List.not_mem_nil
  not_mem_dropLast _ h := absurd h List.not_mem_nil
  ends := List.Pairwise.nil

theorem cutAtEnds_cons {p : List Char} {ps : List (List Char)} (hne : p ≠ [])
    (hp : '\n' ∉ p.dropLast) (hlast : ps ≠ [] → p.getLast? = some '\n') (h : CutAtEnds ps) :
    CutAtEnds (p :: ps) where
  ne_nil := List.forall_mem_cons.mpr ⟨hne, h.ne_nil⟩
  not_mem_dropLast := List.forall_mem_cons.mpr ⟨hp, h.not_mem_dropLast⟩
  ends := by
    refine List.pairwise_cons.mpr ⟨?_, h.ends⟩
    intro q hq
    exact hlast (List.ne_nil_of_mem hq)

theorem CutAtEnds.sublist {ps qs : List (List Char)} (h : CutAtEnds qs) (hsub : ps.Sublist qs) :
    CutAtEnds ps where
  ne_nil p hp := h.ne_nil p (hsub.subset hp)
  not_mem_dropLast p hp := h.not_mem_dropLast p (hsub.subset hp)
  ends := h.ends.sublist hsub

/-- The pieces of a text are cut where its lines end. -/
theorem cutAtEnds_pieces (cs : List Char) : CutAtEnds (pieces cs) := by
  induction cs with
  | nil => exact cutAtEnds_nil
  | cons c cs ih =>
    by_cases hc : c = '\n'
    · rw [hc, pieces]
      exact cutAtEnds_cons (by simp) (by simp) (fun _ => rfl) ih
    · rw [pieces_cons_of_ne hc]
      split
      · exact cutAtEnds_cons (by simp) (by simp) (fun h => absurd rfl h) cutAtEnds_nil
      · next p ps hcons =>
        rw [hcons] at ih
        have hp : p ≠ [] := ih.ne_nil p List.mem_cons_self
        obtain ⟨hlast, hends⟩ := List.pairwise_cons.mp ih.ends
        refine cutAtEnds_cons (by simp) ?_ ?_ (ih.sublist (List.sublist_cons_self p ps))
        · rw [List.dropLast_cons_of_ne_nil hp, List.mem_cons]
          rintro (h | h)
          · exact hc h.symm
          · exact ih.not_mem_dropLast p List.mem_cons_self h
        · intro hne
          obtain ⟨q, hq⟩ := List.exists_mem_of_ne_nil ps hne
          rw [List.getLast?_cons_of_ne_nil hp]
          exact hlast q hq

/-- A text in front of which a line is put has that line as its first piece. -/
theorem pieces_append {p : List Char} (hp : '\n' ∉ p.dropLast) (hlast : p.getLast? = some '\n')
    (cs : List Char) : pieces (p ++ cs) = p :: pieces cs := by
  induction p with
  | nil => simp at hlast
  | cons c p ih =>
    cases p with
    | nil =>
      obtain rfl : c = '\n' := by simpa using hlast
      rfl
    | cons d p =>
      simp only [List.dropLast_cons_cons, List.mem_cons, not_or] at hp
      have hc : c ≠ '\n' := fun h => hp.1 h.symm
      rw [List.cons_append, pieces_cons_of_ne hc, ih hp.2 (by simpa using hlast)]

/-- A text without a line feed before its end is one piece. -/
theorem pieces_eq_singleton {p : List Char} (hne : p ≠ []) (hp : '\n' ∉ p.dropLast) :
    pieces p = [p] := by
  induction p with
  | nil => exact absurd rfl hne
  | cons c p ih =>
    cases p with
    | nil =>
      by_cases hc : c = '\n'
      · rw [hc]
        rfl
      · rw [pieces_cons_of_ne hc]
        rfl
    | cons d p =>
      simp only [List.dropLast_cons_cons, List.mem_cons, not_or] at hp
      have hc : c ≠ '\n' := fun h => hp.1 h.symm
      rw [pieces_cons_of_ne hc, ih (by simp) hp.2]

/-- Texts that are cut where lines end are the pieces of what they make up. -/
theorem pieces_flatten {ps : List (List Char)} (h : CutAtEnds ps) : pieces ps.flatten = ps := by
  induction ps with
  | nil => rfl
  | cons p ps ih =>
    have hne := h.ne_nil p List.mem_cons_self
    have hp := h.not_mem_dropLast p List.mem_cons_self
    have hrest := ih (h.sublist (List.sublist_cons_self p ps))
    rw [List.flatten_cons]
    by_cases hps : ps = []
    · rw [hps, List.flatten_nil, List.append_nil, pieces_eq_singleton hne hp]
    · obtain ⟨q, hq⟩ := List.exists_mem_of_ne_nil ps hps
      rw [pieces_append hp ((List.pairwise_cons.mp h.ends).1 q hq), hrest]

/-! ## Keeping some lines -/

/-- The text without the lines whose numbers fail a test; lines count from 1. -/
def keepLines (keep : Nat → Bool) (cs : List Char) : List Char :=
  (keepNumbered keep 1 (pieces cs)).flatten

/-- The lines of the shorter text are the ones kept. -/
theorem lines_keepLines (keep : Nat → Bool) (cs : List Char) :
    lines (keepLines keep cs) = keepNumbered keep 1 (lines cs) := by
  have hcut := (cutAtEnds_pieces cs).sublist (keepNumbered_sublist keep 1 (pieces cs))
  rw [lines_eq_map_pieces, keepLines, pieces_flatten hcut, map_keepNumbered, ← lines_eq_map_pieces]

/-- The line ends of the lines that stay are left as they are. -/
example : keepLines (· ≠ 2) "a\r\nb\nc".toList = "a\r\nc".toList := by decide

end Text

end Groovebox
