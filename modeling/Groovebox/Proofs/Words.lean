import Groovebox.Text
import Mathlib.Data.List.Basic
import Mathlib.Data.List.TakeWhile

/-!
# Gaps and words

A text is gaps of blanks with words between them.  `Runs` says which words a text has, without a
procedure that finds them: each is taken up to a blank or to the end, so that none could be longer.
`words` finds these words and no others (`runs_iff`), and trimming takes a gap off an end
(`trimStart_gap_append`, `trimEnd_append_gap`) and does not touch the words.
-/

namespace Groovebox.Text

/-! ## Gaps -/

/-- A text of blanks only. -/
def IsGap (cs : List Char) : Prop :=
  ∀ c ∈ cs, isBlank c = true

theorem isGap_nil : IsGap [] :=
  fun _ h => absurd h List.not_mem_nil

theorem IsGap.cons {c : Char} {cs : List Char} (hc : isBlank c = true) (h : IsGap cs) :
    IsGap (c :: cs) :=
  List.forall_mem_cons.mpr ⟨hc, h⟩

theorem IsGap.append {a b : List Char} (ha : IsGap a) (hb : IsGap b) : IsGap (a ++ b) :=
  List.forall_mem_append.mpr ⟨ha, hb⟩

theorem IsGap.reverse {cs : List Char} (h : IsGap cs) : IsGap cs.reverse :=
  fun c hc => h c (List.mem_reverse.mp hc)

/-- A gap holds no character that is not blank. -/
theorem IsGap.not_mem {cs : List Char} (h : IsGap cs) {c : Char} (hc : isBlank c = false) :
    c ∉ cs := by
  intro hmem
  rw [h c hmem] at hc
  cases hc

/-! ## Trimming -/

/-- What is trimmed off the front is a gap. -/
theorem exists_gap_append_trimStart (cs : List Char) :
    ∃ gap, IsGap gap ∧ cs = gap ++ trimStart cs := by
  refine ⟨cs.takeWhile isBlank, ?_, List.takeWhile_append_dropWhile.symm⟩
  exact List.all_eq_true.mp List.all_takeWhile

theorem trimStart_gap_append {gap : List Char} (h : IsGap gap) (cs : List Char) :
    trimStart (gap ++ cs) = trimStart cs :=
  List.dropWhile_append_of_pos h

theorem trimStart_gap {gap : List Char} (h : IsGap gap) : trimStart gap = [] :=
  List.dropWhile_eq_nil_iff.mpr h

/-- From the front nothing is trimmed past a character that is not blank. -/
theorem trimStart_append_cons {c : Char} (hc : isBlank c = false) (cs ds : List Char) :
    trimStart (cs ++ c :: ds) = trimStart cs ++ c :: ds := by
  unfold trimStart
  rw [List.dropWhile_append]
  split
  · next hgap => rw [List.isEmpty_iff.mp hgap, List.dropWhile_cons_of_neg (by simp [hc])]; rfl
  · rfl

theorem trimEnd_eq_reverse (cs : List Char) : trimEnd cs = (trimStart cs.reverse).reverse := rfl

/-- What is trimmed off the end is a gap. -/
theorem exists_trimEnd_append_gap (cs : List Char) :
    ∃ gap, IsGap gap ∧ cs = trimEnd cs ++ gap := by
  obtain ⟨gap, hgap, heq⟩ := exists_gap_append_trimStart cs.reverse
  refine ⟨gap.reverse, hgap.reverse, ?_⟩
  rw [trimEnd_eq_reverse, ← List.reverse_append, ← heq, List.reverse_reverse]

theorem trimEnd_append_gap {gap : List Char} (h : IsGap gap) (cs : List Char) :
    trimEnd (cs ++ gap) = trimEnd cs := by
  rw [trimEnd_eq_reverse, List.reverse_append, trimStart_gap_append h.reverse, trimEnd_eq_reverse]

theorem trimEnd_gap {gap : List Char} (h : IsGap gap) : trimEnd gap = [] := by
  rw [trimEnd_eq_reverse, trimStart_gap h.reverse, List.reverse_nil]

/-- From the end nothing is trimmed past a character that is not blank. -/
theorem trimEnd_append_cons {c : Char} (hc : isBlank c = false) (cs ds : List Char) :
    trimEnd (cs ++ c :: ds) = cs ++ c :: trimEnd ds := by
  have hreverse : (cs ++ c :: ds).reverse = ds.reverse ++ c :: cs.reverse := by
    rw [List.reverse_append, List.reverse_cons, List.append_assoc, List.singleton_append]
  rw [trimEnd_eq_reverse, hreverse, trimStart_append_cons hc, List.reverse_append,
    List.reverse_cons, List.reverse_reverse, ← trimEnd_eq_reverse, List.append_assoc,
    List.singleton_append]

theorem trimStart_word {before w : List Char} (hbefore : IsGap before) (hw : IsWord w)
    (after : List Char) : trimStart (before ++ w ++ after) = w ++ after := by
  obtain ⟨hne, hblank⟩ := hw
  cases w with
  | nil => exact absurd rfl hne
  | cons c w =>
    rw [List.append_assoc, List.cons_append, trimStart_append_cons (hblank c List.mem_cons_self),
      trimStart_gap hbefore, List.nil_append]

/-- A word between gaps is what is left when they are trimmed. -/
theorem trim_word {before w after : List Char} (hbefore : IsGap before) (hw : IsWord w)
    (hafter : IsGap after) : trim (before ++ w ++ after) = w := by
  rw [trim, trimStart_word hbefore hw]
  obtain ⟨hne, hblank⟩ := hw
  rcases List.eq_nil_or_concat' w with rfl | ⟨front, c, rfl⟩
  · exact absurd rfl hne
  · have hc : isBlank c = false := hblank c (List.mem_append_right _ List.mem_cons_self)
    rw [List.append_assoc, List.singleton_append, trimEnd_append_cons hc, trimEnd_gap hafter]

theorem trim_gap {cs : List Char} (h : IsGap cs) : trim cs = [] := by
  rw [trim, trimStart_gap h]
  rfl

/-- Gaps at the ends of a text make no difference when it is trimmed. -/
theorem trim_gap_append {gap : List Char} (h : IsGap gap) (cs : List Char) :
    trim (gap ++ cs) = trim cs := by
  rw [trim, trimStart_gap_append h, trim]

theorem trim_append_gap {gap : List Char} (h : IsGap gap) (cs : List Char) :
    trim (cs ++ gap) = trim cs := by
  have hstart : trimStart (cs ++ gap) = trimStart cs ++ gap ∨
      trimStart (cs ++ gap) = [] ∧ trimStart cs = [] := by
    unfold trimStart
    rw [List.dropWhile_append]
    split
    · next hnil => exact Or.inr ⟨trimStart_gap h, List.isEmpty_iff.mp hnil⟩
    · exact Or.inl rfl
  rw [trim, trim]
  rcases hstart with hstart | ⟨hstart, hnil⟩
  · rw [hstart, trimEnd_append_gap h]
  · rw [hstart, hnil]

/-- A text is what is left when it is trimmed, between gaps. -/
theorem exists_gap_append_trim (cs : List Char) :
    ∃ before after, IsGap before ∧ IsGap after ∧ cs = before ++ trim cs ++ after := by
  obtain ⟨before, hbefore, hstart⟩ := exists_gap_append_trimStart cs
  obtain ⟨after, hafter, hend⟩ := exists_trimEnd_append_gap (trimStart cs)
  refine ⟨before, after, hbefore, hafter, ?_⟩
  rw [trim, List.append_assoc, ← hend, ← hstart]

/-- Trimming adds no character. -/
theorem mem_of_mem_trimStart {c : Char} {cs : List Char} (h : c ∈ trimStart cs) : c ∈ cs :=
  (List.dropWhile_sublist _).subset h

theorem mem_of_mem_trim {c : Char} {cs : List Char} (h : c ∈ trim cs) : c ∈ cs := by
  rw [trim, trimEnd_eq_reverse, List.mem_reverse] at h
  exact mem_of_mem_trimStart (List.mem_reverse.mp (mem_of_mem_trimStart h))

/-! ## Words -/

/-- The maximal blank-free runs of a text, in order.  Either it is a gap, or a word follows a gap
and the text goes on with a blank if at all. -/
inductive Runs : List Char → List (List Char) → Prop where
  | gap {cs : List Char} (hgap : IsGap cs) : Runs cs []
  | word {gap w rest : List Char} {ws : List (List Char)} (hgap : IsGap gap) (hword : IsWord w)
      (hend : ∀ c ∈ rest.head?, isBlank c = true) (hrest : Runs rest ws) :
      Runs (gap ++ w ++ rest) (w :: ws)

theorem words_cons_of_blank {c : Char} (hc : isBlank c = true) (cs : List Char) :
    words (c :: cs) = words cs := by
  rw [words.eq_def]
  exact if_pos hc

/-- A gap in front of a text adds no word. -/
theorem words_gap_append {gap : List Char} (h : IsGap gap) (cs : List Char) :
    words (gap ++ cs) = words cs := by
  induction gap with
  | nil => rfl
  | cons c gap ih =>
    obtain ⟨hc, hgap⟩ := List.forall_mem_cons.mp h
    rw [List.cons_append, words_cons_of_blank hc, ih hgap]

/-- A word that ends where it stands is the first one. -/
theorem words_word_append {w rest : List Char} (hw : IsWord w)
    (hend : ∀ c ∈ rest.head?, isBlank c = true) : words (w ++ rest) = w :: words rest := by
  obtain ⟨hne, hblank⟩ := hw
  induction w with
  | nil => exact absurd rfl hne
  | cons c w ih =>
    obtain ⟨hc, hw⟩ := List.forall_mem_cons.mp hblank
    cases w with
    | nil =>
      cases rest with
      | nil =>
        rw [words.eq_def]
        exact if_neg (by simp [hc])
      | cons d rest =>
        have hd : isBlank d = true := hend d rfl
        simp [words.eq_def (c :: d :: rest), hc, hd]
    | cons d w =>
      have hd : isBlank d = false := hw d List.mem_cons_self
      have hrest : words (d :: (w ++ rest)) = (d :: w) :: words rest := ih (by simp) hw
      simp [words.eq_def (c :: d :: (w ++ rest)), hc, hd, hrest]

/-- The runs of a text are its words. -/
theorem Runs.words_eq {cs : List Char} {ws : List (List Char)} (h : Runs cs ws) :
    words cs = ws := by
  induction h with
  | @gap cs hgap =>
    have hwords := words_gap_append hgap []
    rwa [List.append_nil] at hwords
  | word hgap hword hend _ ih =>
    rw [List.append_assoc, words_gap_append hgap, words_word_append hword hend, ih]

/-- A text without words is a gap. -/
theorem Runs.isGap {cs : List Char} (h : Runs cs []) : IsGap cs := by
  cases h with
  | gap hgap => exact hgap

theorem Runs.cons_blank {c : Char} (hc : isBlank c = true) {cs : List Char}
    {ws : List (List Char)} (h : Runs cs ws) : Runs (c :: cs) ws := by
  cases h with
  | gap hgap => exact .gap (hgap.cons hc)
  | word hgap hword hend hrest => exact .word (hgap.cons hc) hword hend hrest

/-- A character joins the word that the text begins with. -/
theorem Runs.cons_word {c d : Char} (hc : isBlank c = false) (hd : isBlank d = false)
    {cs w : List Char} {ws : List (List Char)} (h : Runs (d :: cs) (w :: ws)) :
    Runs (c :: d :: cs) ((c :: w) :: ws) := by
  generalize htext : d :: cs = text at h
  cases h with
  | @word gap w rest ws hgap hword hend hrest =>
    cases gap with
    | nil =>
      have hjoined : IsWord (c :: w) :=
        ⟨List.cons_ne_nil _ _, List.forall_mem_cons.mpr ⟨hc, hword.2⟩⟩
      exact .word isGap_nil hjoined hend hrest
    | cons b gap =>
      cases htext
      rw [hgap d List.mem_cons_self] at hd
      cases hd

/-- A character that is not blank and stands alone is a word. -/
theorem Runs.cons_alone {c : Char} (hc : isBlank c = false) {cs : List Char}
    {ws : List (List Char)} (hend : ∀ d ∈ cs.head?, isBlank d = true) (h : Runs cs ws) :
    Runs (c :: cs) ([c] :: ws) := by
  have hword : IsWord [c] := ⟨List.cons_ne_nil _ _, List.forall_mem_singleton.mpr hc⟩
  exact .word isGap_nil hword hend h

/-- Every text has its words as runs. -/
theorem runs_words (cs : List Char) : Runs cs (words cs) := by
  fun_induction words cs with
  | case1 => exact .gap isGap_nil
  | case2 c cs hc ih => exact ih.cons_blank hc
  | case3 c hc =>
    exact .cons_alone (Bool.eq_false_iff.mpr hc) (fun d hd => by cases hd) (.gap isGap_nil)
  | case4 c hc d cs hd ih =>
    refine .cons_alone (Bool.eq_false_iff.mpr hc) ?_ ih
    rintro _ ⟨⟩
    exact hd
  | case5 c hc d cs hd hnil ih =>
    -- the text goes on with a character that is not blank, so it has words
    rw [hnil] at ih
    exact absurd (ih.isGap d List.mem_cons_self) hd
  | case6 c hc d cs hd w ws hcons ih =>
    rw [hcons] at ih ⊢
    exact ih.cons_word (Bool.eq_false_iff.mpr hc) (Bool.eq_false_iff.mpr hd)

/-- The words of a text are its maximal blank-free runs. -/
theorem runs_iff {cs : List Char} {ws : List (List Char)} : Runs cs ws ↔ words cs = ws :=
  ⟨Runs.words_eq, fun h => h ▸ runs_words cs⟩

/-- A gap at the end of a text adds no word. -/
theorem Runs.append_gap {cs gap : List Char} {ws : List (List Char)} (h : Runs cs ws)
    (hgap : IsGap gap) : Runs (cs ++ gap) ws := by
  induction h with
  | gap hcs => exact .gap (hcs.append hgap)
  | @word front w rest ws hfront hword hend _ ih =>
    rw [List.append_assoc]
    refine .word hfront hword ?_ ih
    cases rest with
    | nil => exact fun c hc => hgap c (List.mem_of_mem_head? hc)
    | cons d rest => exact hend

theorem words_append_gap {gap : List Char} (h : IsGap gap) (cs : List Char) :
    words (cs ++ gap) = words cs :=
  ((runs_words cs).append_gap h).words_eq

/-- Trimming the end of a text leaves its words. -/
theorem words_trimEnd (cs : List Char) : words (trimEnd cs) = words cs := by
  obtain ⟨gap, hgap, heq⟩ := exists_trimEnd_append_gap cs
  conv_rhs => rw [heq]
  rw [words_append_gap hgap]

end Groovebox.Text
