import Groovebox.Proofs.Layout
import Groovebox.Proofs.Playable

/-!
# Patterns written out and read back

A pattern set is written out as a text with a line for each of its tracks, in any order: the track's
name, a colon, and the steps with spaces between them.  A step can be read back if it is a rest, or
a word other than the word for a rest; a set of such steps is `IsPlain`.  Reading the text of a
plain set gives the set (`IsWrittenOut.compile_eq`), and a set that is read from a text, whatever it
says, is plain (`isPlain_compile`).  `render` is one way to write a set out.
-/

namespace Groovebox

open Text

/-! ## Words between spaces -/

namespace Text

-- the characters of the word are gone through, not all characters that there are
instance (w : List Char) : Decidable (IsWord w) :=
  have := List.decidableBAll (fun c => isBlank c = false) w
  inferInstanceAs (Decidable (w ≠ [] ∧ ∀ c ∈ w, isBlank c = false))

/-- The runs of a text are words. -/
theorem Runs.isWord {cs : List Char} {ws : List (List Char)} (h : Runs cs ws) :
    ∀ w ∈ ws, IsWord w := by
  induction h with
  | gap => exact fun _ hmem => absurd hmem List.not_mem_nil
  | word _ hword _ _ ih => exact List.forall_mem_cons.mpr ⟨hword, ih⟩

theorem isGap_replicate_space (n : Nat) : IsGap (List.replicate n ' ') := by
  intro c hc
  rw [List.eq_of_mem_replicate hc]
  rfl

/-- Words with spaces between them, one or more, and as many as one likes before the first. -/
inductive Spaced : List (List Char) → List Char → Prop where
  | none (n : Nat) : Spaced [] (List.replicate n ' ')
  | last (n : Nat) (w : List Char) : Spaced [w] (List.replicate n ' ' ++ w)
  | cons (n : Nat) (w : List Char) {ws : List (List Char)} {rest : List Char}
      (h : Spaced ws rest) : Spaced (w :: ws) (List.replicate n ' ' ++ w ++ ' ' :: rest)

/-- Words with spaces between them are read back. -/
theorem Spaced.runs {ws : List (List Char)} {cs : List Char} (h : Spaced ws cs)
    (hws : ∀ w ∈ ws, IsWord w) : Runs cs ws := by
  have hspace : isBlank ' ' = true := by decide
  induction h with
  | none n => exact .gap (isGap_replicate_space n)
  | last n w =>
    have hword : IsWord w := hws w List.mem_cons_self
    have hruns : Runs (List.replicate n ' ' ++ w ++ []) [w] :=
      .word (isGap_replicate_space n) hword (fun _ hc => by cases hc) (.gap isGap_nil)
    rwa [List.append_nil] at hruns
  | cons n w _ ih =>
    obtain ⟨hword, hws⟩ := List.forall_mem_cons.mp hws
    refine .word (isGap_replicate_space n) hword ?_ ((ih hws).cons_blank hspace)
    rintro _ ⟨⟩
    exact hspace

/-- A character of a spaced text is a space, or it is in one of the words. -/
theorem Spaced.mem {ws : List (List Char)} {cs : List Char} (h : Spaced ws cs) {c : Char}
    (hc : c ∈ cs) : c = ' ' ∨ ∃ w ∈ ws, c ∈ w := by
  induction h with
  | none n => exact Or.inl (List.eq_of_mem_replicate hc)
  | last n w =>
    rcases List.mem_append.mp hc with hc | hc
    · exact Or.inl (List.eq_of_mem_replicate hc)
    · exact Or.inr ⟨w, List.mem_cons_self, hc⟩
  | cons n w _ ih =>
    rw [List.append_assoc, List.mem_append, List.mem_append, List.mem_cons] at hc
    rcases hc with hc | hc | hc | hc
    · exact Or.inl (List.eq_of_mem_replicate hc)
    · exact Or.inr ⟨w, List.mem_cons_self, hc⟩
    · exact Or.inl hc
    · refine (ih hc).imp_right ?_
      rintro ⟨w', hw', hmem⟩
      exact ⟨w', List.mem_cons_of_mem w hw', hmem⟩

theorem spaced_cons (n : Nat) (w : List Char) (ws : List (List Char)) :
    Spaced (w :: ws) (List.replicate n ' ' ++ w ++ ws.flatMap (' ' :: ·)) := by
  induction ws generalizing n w with
  | nil =>
    rw [List.flatMap_nil, List.append_nil]
    exact .last n w
  | cons w' ws ih => exact .cons n w (ih 0 w')

/-- Each word may have a space before it. -/
theorem spaced_flatMap (ws : List (List Char)) : Spaced ws (ws.flatMap (' ' :: ·)) := by
  cases ws with
  | nil => exact .none 0
  | cons w ws => exact spaced_cons 1 w ws

/-! ## Lines joined -/

/-- Lines joined by writing a line feed after each of them. -/
def unlines (ls : List (List Char)) : List Char :=
  ls.flatMap (· ++ ['\n'])

/-- The last line may be without an end. -/
theorem unlines_eq_intercalate {ls : List (List Char)} (h : ls ≠ []) :
    unlines ls = ['\n'].intercalate ls ++ ['\n'] := by
  induction ls with
  | nil => exact absurd rfl h
  | cons line ls ih =>
    rw [unlines, List.flatMap_cons, ← unlines]
    cases ls with
    | nil => rw [List.intercalate_singleton, unlines, List.flatMap_nil, List.append_nil]
    | cons line' ls =>
      rw [ih (List.cons_ne_nil _ _), List.intercalate_cons_cons]
      simp only [List.append_assoc]

end Text

/-! ## Plain sets -/

/-- A step that can be written out: a rest, or a word that is not the word for a rest. -/
def StepToken.IsPlain : StepToken → Prop
  | .rest => True
  | .play word => IsWord word.toList ∧ word ≠ StepToken.restText

instance : DecidablePred StepToken.IsPlain
  | .rest => isTrue trivial
  | .play word => inferInstanceAs (Decidable (IsWord word.toList ∧ word ≠ StepToken.restText))

/-- A set of which every step can be written out. -/
def PatternSet.IsPlain (set : PatternSet) : Prop :=
  ∀ entry ∈ set.toList, ∀ step ∈ entry.2.steps, step.IsPlain

instance (set : PatternSet) : Decidable set.IsPlain :=
  inferInstanceAs (Decidable (∀ entry ∈ set.toList, ∀ step ∈ entry.2.steps, step.IsPlain))

namespace PatternText

theorem isWord_text {step : StepToken} (h : step.IsPlain) : IsWord step.text.toList := by
  cases step with
  | rest =>
    have hdash : isBlank '-' = false := by decide
    exact ⟨List.cons_ne_nil _ _, List.forall_mem_singleton.mpr hdash⟩
  | play word => exact h.1

/-- A step is read back from its text. -/
theorem stepOfWord_text {step : StepToken} (h : step.IsPlain) :
    stepOfWord step.text.toList = step := by
  cases step with
  | rest => rfl
  | play word =>
    obtain ⟨_, hword⟩ := h
    have hne : word.toList ≠ ['-'] := fun heq => hword (String.toList_inj.mp heq)
    rw [stepOfWord, StepToken.text, if_neg hne, String.ofList_toList]

theorem isPlain_stepOfWord {w : List Char} (h : IsWord w) : (stepOfWord w).IsPlain := by
  unfold stepOfWord
  split
  · trivial
  · next hne =>
    refine ⟨by rwa [String.toList_ofList], fun heq => hne ?_⟩
    rw [← String.toList_ofList (l := w), heq]
    rfl

/-- What is read from a text can be written out. -/
theorem isPlain_compile (text : String) : (compile text).IsPlain := by
  rintro ⟨track, pattern⟩ hentry step hstep
  have hget := PatternSet.get?_of_mem_toList hentry
  obtain ⟨_, _, _, body, _, _, _, hsteps⟩ := get?_compile_eq_some_iff.mp hget
  rw [hsteps] at hstep
  obtain ⟨w, hw, rfl⟩ := List.mem_map.mp hstep
  exact isPlain_stepOfWord ((runs_words body).isWord w hw)

/-! ## Lines written out -/

/-- A line for a pattern of a track: the name of the track, a colon, and the texts of the steps with
spaces between them. -/
def IsWritten (entry : Track × Pattern) (line : List Char) : Prop :=
  ∃ body, Spaced (entry.2.steps.map (·.text.toList)) body ∧
    line = entry.1.name.toList ++ ':' :: body

/-- The steps of a pattern are read back from the words with spaces between them. -/
theorem ofWords_tokens_of_spaced {pattern : Pattern} (h : ∀ step ∈ pattern.steps, step.IsPlain)
    {body : List Char} (hbody : Spaced (pattern.steps.map (·.text.toList)) body) :
    Pattern.ofWords (tokens body) = pattern := by
  have hwords : ∀ w ∈ pattern.steps.map (·.text.toList), IsWord w := by
    intro w hw
    obtain ⟨step, hstep, rfl⟩ := List.mem_map.mp hw
    exact isWord_text (h step hstep)
  have hsteps : (Pattern.ofWords (tokens body)).steps = pattern.steps := by
    rw [steps_ofWords_tokens, (hbody.runs hwords).words_eq, List.map_map]
    exact (List.map_congr_left fun step hstep => stepOfWord_text (h step hstep)).trans
      (List.map_id _)
  cases pattern
  exact congrArg Pattern.mk hsteps

/-- The name of a track names no other track. -/
theorem names_name_iff {track other : Track} : Names other track.name.toList ↔ track = other := by
  rw [names_iff]
  cases track <;> cases other <;> decide

/-- A line that is written out says its pattern for its track, and nothing for another one. -/
theorem IsWritten.patternOf?_eq {entry : Track × Pattern} {line : List Char}
    (h : IsWritten entry line) (hplain : ∀ step ∈ entry.2.steps, step.IsPlain) (track : Track) :
    patternOf? track line = if entry.1 = track then some entry.2 else none := by
  obtain ⟨body, hbody, rfl⟩ := h
  have hcolon : ':' ∉ entry.1.name.toList := (names_name_iff.mpr rfl).colon_not_mem
  refine Option.ext fun pattern => ?_
  rw [patternOf?_colon_eq_some_iff hcolon, names_name_iff, ofWords_tokens_of_spaced hplain hbody,
    Option.ite_none_right_eq_some, Option.some_inj]

/-- A line that is written out has no line feed. -/
theorem IsWritten.lineFeed_not_mem {entry : Track × Pattern} {line : List Char}
    (h : IsWritten entry line) (hplain : ∀ step ∈ entry.2.steps, step.IsPlain) : '\n' ∉ line := by
  have hblank : isBlank '\n' = true := by decide
  obtain ⟨body, hbody, rfl⟩ := h
  rw [List.mem_append, List.mem_cons]
  rintro (hname | hcolon | hmem)
  · revert hname
    cases entry.1 <;> decide
  · revert hcolon
    decide
  · rcases hbody.mem hmem with hspace | ⟨w, hw, hmem⟩
    · revert hspace
      decide
    · -- no word has a blank in it
      obtain ⟨step, hstep, rfl⟩ := List.mem_map.mp hw
      have hword := (isWord_text (hplain step hstep)).2 '\n' hmem
      rw [hblank] at hword
      cases hword

/-! ## Texts written out -/

/-- What lines say when each is put on a line of its own. -/
theorem patternsFor_unlines {ls : List (List Char)} (h : ∀ line ∈ ls, '\n' ∉ line)
    (track : Track) : patternsFor track (unlines ls) = ls.filterMap (patternOf? track) := by
  induction ls with
  | nil => rfl
  | cons line ls ih =>
    obtain ⟨hline, hls⟩ := List.forall_mem_cons.mp h
    have happend := patternsFor_append lineStart_nil hline (lineEnd_lineFeed (unlines ls)) track
    rw [List.nil_append] at happend
    rw [unlines, List.flatMap_cons, ← unlines, List.append_assoc, List.singleton_append, happend,
      List.tail_cons, ih hls, List.filterMap_cons]
    cases patternOf? track line <;> rfl

theorem patternsFor_intercalate {ls : List (List Char)} (h : ∀ line ∈ ls, '\n' ∉ line)
    (track : Track) :
    patternsFor track (['\n'].intercalate ls) = ls.filterMap (patternOf? track) := by
  by_cases hls : ls = []
  · rw [hls]
    rfl
  · rw [← patternsFor_append_lineFeed, ← unlines_eq_intercalate hls, patternsFor_unlines h]

/-- A text for a set: a line for each track of the set, in any order, and a line feed between two
lines, or after each line. -/
def IsWrittenOut (set : PatternSet) (text : String) : Prop :=
  ∃ order ls, order.Perm set.toList ∧ List.Forall₂ IsWritten order ls ∧
    (text.toList = ['\n'].intercalate ls ∨ text.toList = unlines ls)

theorem lineFeed_not_mem_of_forall₂ {order : List (Track × Pattern)} {ls : List (List Char)}
    (h : List.Forall₂ IsWritten order ls)
    (hplain : ∀ entry ∈ order, ∀ step ∈ entry.2.steps, step.IsPlain) :
    ∀ line ∈ ls, '\n' ∉ line := by
  induction h with
  | nil => exact fun _ hmem => absurd hmem List.not_mem_nil
  | cons hline _ ih =>
    obtain ⟨hentry, horder⟩ := List.forall_mem_cons.mp hplain
    exact List.forall_mem_cons.mpr ⟨hline.lineFeed_not_mem hentry, ih horder⟩

/-- The lines say for a track what the set has for it, in whatever order they are. -/
theorem filterMap_patternOf? {order : List (Track × Pattern)} {ls : List (List Char)}
    (h : List.Forall₂ IsWritten order ls)
    (hplain : ∀ entry ∈ order, ∀ step ∈ entry.2.steps, step.IsPlain) (track : Track) :
    ls.filterMap (patternOf? track) = (order.filter (·.1 = track)).map (·.2) := by
  induction h with
  | nil => rfl
  | @cons entry line order ls hline _ ih =>
    obtain ⟨hentry, horder⟩ := List.forall_mem_cons.mp hplain
    rw [List.filterMap_cons, hline.patternOf?_eq hentry, ih horder, List.filter_cons]
    by_cases htrack : entry.1 = track
    · simp [htrack]
    · simp [htrack]

theorem filter_eq_of_perm {set : PatternSet} {order : List (Track × Pattern)}
    (h : order.Perm set.toList) (track : Track) :
    order.filter (·.1 = track) = ((set.get? track).map (track, ·)).toList := by
  have hperm := h.filter (·.1 = track)
  rw [set.filter_toList] at hperm
  cases hget : set.get? track with
  | none => simpa [hget] using hperm
  | some pattern => simpa [hget] using hperm

/-- A text that is written out says for each track what the set has for it. -/
theorem IsWrittenOut.patternsFor_eq {set : PatternSet} {text : String} (h : IsWrittenOut set text)
    (hplain : set.IsPlain) (track : Track) :
    patternsFor track text.toList = (set.get? track).toList := by
  obtain ⟨order, ls, hperm, hlines, htext⟩ := h
  have horder : ∀ entry ∈ order, ∀ step ∈ entry.2.steps, step.IsPlain := by
    intro entry hentry
    exact hplain entry (hperm.mem_iff.mp hentry)
  have hfeed := lineFeed_not_mem_of_forall₂ hlines horder
  have hsay : patternsFor track text.toList = ls.filterMap (patternOf? track) := by
    rcases htext with htext | htext
    · rw [htext, patternsFor_intercalate hfeed]
    · rw [htext, patternsFor_unlines hfeed]
  rw [hsay, filterMap_patternOf? hlines horder, filter_eq_of_perm hperm]
  cases set.get? track <;> rfl

theorem IsWrittenOut.compile_eq {set : PatternSet} {text : String} (h : IsWrittenOut set text)
    (hplain : set.IsPlain) : compile text = set := by
  refine PatternSet.ext_get? fun track => ?_
  rw [get?_compile_eq_getLast?, h.patternsFor_eq hplain]
  cases set.get? track <;> rfl

/-- The line for one track: its name, a colon and its tokens, a space before each. -/
def renderLine (track : Track) (pattern : Pattern) : List Char :=
  track.name.toList ++ [':'] ++ pattern.steps.flatMap fun step => ' ' :: step.text.toList

/-- A pattern set in the form of a text, one line for each of its tracks. -/
def render (set : PatternSet) : String :=
  String.ofList (Text.unlines (set.toList.map fun (track, pattern) => renderLine track pattern))

/-- `render` writes a set out. -/
theorem isWrittenOut_render (set : PatternSet) : IsWrittenOut set (render set) := by
  refine ⟨set.toList, _, List.Perm.refl _, ?_, Or.inr String.toList_ofList⟩
  rw [List.forall₂_map_right_iff, List.forall₂_same]
  rintro ⟨track, pattern⟩ _
  refine ⟨_, spaced_flatMap _, ?_⟩
  show renderLine track pattern = _
  rw [renderLine, List.append_assoc, List.singleton_append, List.flatMap_map]

/-- A plain set is what is read from any text in which it is written out, and every set that is read
from a text is plain.  So writing out what was read and reading it again gives the same set. -/
theorem compile_written_out :
    (∀ set text, set.IsPlain → IsWrittenOut set text → compile text = set) ∧
      (∀ text, (compile text).IsPlain) ∧
      (∀ text copy, IsWrittenOut (compile text) copy → compile copy = compile text) ∧
      ∀ set, IsWrittenOut set (render set) := by
  refine ⟨fun set text hplain h => h.compile_eq hplain, isPlain_compile, fun text copy h => ?_,
    isWrittenOut_render⟩
  exact h.compile_eq (isPlain_compile text)

/-- A set is read back though a word of it is a track's name with a colon and another one begins a
comment. -/
theorem compile_written_out_names :
    let set : PatternSet := ⟨none, some ⟨[.play "synth:", .rest, .play "//"]⟩, some ⟨[]⟩⟩
    let text := "synth:\nbass:  synth: - //"
    set.IsPlain ∧ IsWrittenOut set text ∧ compile text = set := by
  intro set text
  have hplain : set.IsPlain := by decide
  have hwritten : IsWrittenOut set text := by
    refine ⟨[(.synth, ⟨[]⟩), (.bass, ⟨[.play "synth:", .rest, .play "//"]⟩)],
      ["synth:".toList, "bass:  synth: - //".toList], List.Perm.swap _ _ _, ?_, Or.inl (by decide)⟩
    refine .cons ⟨[], .none 0, rfl⟩ (.cons ⟨"  synth: - //".toList, ?_, rfl⟩ .nil)
    exact .cons 2 _ (.cons 0 _ (.last 0 _))
  exact ⟨hplain, hwritten, compile_written_out.1 set text hplain hwritten⟩

end PatternText

end Groovebox
