import Groovebox.Proofs.LineGrammar

/-!
# What is at fault with a line as it stands

A line that is for no track is blank, or a comment, or has no colon, or has something else than a
name before its first colon.  `FaultsOf` says so of the line as it stands, and with it what is at
fault with the line; `Advised` puts down the diagnostics of all lines, one line after another.
`check`, which learns that a line is replaced only when it meets the line that replaces it, gives
these diagnostics and no others (`check_eq_iff`).  Of the lines for a track it reports all but the
last as replaced, each by the next (`overrides_check`).
-/

namespace Groovebox

namespace PatternText

open Text

/-! ## Comments -/

/-- A comment has two slashes before anything else that is not blank. -/
def IsCommentLine (line : List Char) : Prop :=
  ∃ gap rest, IsGap gap ∧ line = gap ++ '/' :: '/' :: rest

theorem isComment_eq_true_iff {cs : List Char} :
    isComment cs = true ↔ ∃ rest, cs = '/' :: '/' :: rest := by
  constructor
  · intro h
    unfold isComment at h
    split at h
    · next rest => exact ⟨rest, rfl⟩
    · cases h
  · rintro ⟨rest, rfl⟩
    rfl

/-- A comment begins with two slashes when it is trimmed. -/
theorem isComment_trim_iff {line : List Char} :
    isComment (trim line) = true ↔ IsCommentLine line := by
  have hslash : isBlank '/' = false := by decide
  rw [isComment_eq_true_iff]
  constructor
  · rintro ⟨rest, hrest⟩
    obtain ⟨before, after, hbefore, _, heq⟩ := exists_gap_append_trim line
    refine ⟨before, rest ++ after, hbefore, ?_⟩
    rw [hrest, List.append_assoc] at heq
    exact heq
  · rintro ⟨gap, rest, hgap, rfl⟩
    refine ⟨trimEnd rest, ?_⟩
    rw [trim, trimStart_append_cons hslash, trimStart_gap hgap, List.nil_append]
    exact trimEnd_append_cons hslash ['/'] rest

/-! ## How lines that are for no track are read -/

/-- A text that is trimmed to nothing is a gap. -/
theorem isGap_of_trim_eq_nil {line : List Char} (h : trim line = []) : IsGap line := by
  obtain ⟨before, after, hbefore, hafter, heq⟩ := exists_gap_append_trim line
  rw [heq, h, List.append_nil]
  exact hbefore.append hafter

theorem ofChars_gap {line : List Char} (h : IsGap line) : Line.ofChars line = .skip := by
  unfold Line.ofChars
  dsimp only
  rw [trim_gap h]
  rfl

theorem ofChars_comment {line : List Char} (h : IsCommentLine line) :
    Line.ofChars line = .skip := by
  unfold Line.ofChars
  dsimp only
  rw [isComment_trim_iff.mpr h, Bool.or_true, if_pos rfl]

theorem ofChars_malformed {line : List Char} (hgap : ¬ IsGap line)
    (hcomment : ¬ IsCommentLine line) (hcolon : ':' ∉ line) :
    Line.ofChars line = .malformed := by
  rw [ofChars_of_colon_not_mem hcolon, if_neg]
  rw [Bool.or_eq_true, List.isEmpty_iff, isComment_trim_iff]
  rintro (h | h)
  · exact hgap (isGap_of_trim_eq_nil h)
  · exact hcomment h

theorem ofChars_unknownTrack {head body : List Char}
    (hcomment : ¬ IsCommentLine (head ++ ':' :: body)) (hcolon : ':' ∉ head)
    (hname : ∀ track, ¬ Names track head) :
    Line.ofChars (head ++ ':' :: body) = .unknownTrack (trim head) := by
  have hblank : isBlank ':' = false := by decide
  have hstart : ¬ isComment (trimStart head) = true := by
    rwa [← isComment_trim_iff, trim, trimStart_append_cons hblank, trimEnd_append_cons hblank,
      isComment_append_colon] at hcomment
  have hnone : Track.ofName? (trim head) = none := by
    rw [Option.eq_none_iff_forall_ne_some]
    intro track htrack
    exact hname track (names_iff.mpr (ofName?_eq_some_iff.mp htrack))
  rw [ofChars_append_colon hcolon, if_neg hstart, hnone]

/-! ## What is at fault with a line -/

/-- The tokens of a line that cannot sound on its track, in the order of the line. -/
def invalidTokens (track : Track) (runs : List (List Char)) : List Fault :=
  ((runs.map String.ofList).filter fun token => !isValidToken token track).map
    (.invalidToken track)

/-- What is at fault with a line, which has a number and lines after it.  Of a line for a track,
these are first the tokens that cannot sound, each as often as it stands there, and then that the
next line for the same track replaces it, if there is one. -/
inductive FaultsOf (number : Nat) (later : List (List Char)) : List Char → List Fault → Prop where
  | blank {line : List Char} (hgap : IsGap line) : FaultsOf number later line []
  | comment {line : List Char} (hcomment : IsCommentLine line) : FaultsOf number later line []
  | malformed {line : List Char} (hgap : ¬ IsGap line) (hcomment : ¬ IsCommentLine line)
      (hcolon : ':' ∉ line) : FaultsOf number later line [.malformed]
  | unknownTrack {head body : List Char} (hcomment : ¬ IsCommentLine (head ++ ':' :: body))
      (hcolon : ':' ∉ head) (hname : ∀ track, ¬ Names track head) :
      FaultsOf number later (head ++ ':' :: body) [.unknownTrack (String.ofList (trim head))]
  | last {track : Track} {line body : List Char} {runs : List (List Char)}
      (hline : IsLineFor track line body) (hruns : Runs body runs)
      (hlater : ∀ other ∈ later, ∀ body, ¬ IsLineFor track other body) :
      FaultsOf number later line (invalidTokens track runs)
  | replaced {track : Track} {line body next nextBody : List Char}
      {runs between rest : List (List Char)}
      (hline : IsLineFor track line body) (hruns : Runs body runs)
      (hlater : later = between ++ next :: rest)
      (hbetween : ∀ other ∈ between, ∀ body, ¬ IsLineFor track other body)
      (hnext : IsLineFor track next nextBody) :
      FaultsOf number later line
        (invalidTokens track runs ++ [.overridden track (number + 1 + between.length)])

/-- The faults of a line for a track are those of its tokens. -/
theorem faults_isLineFor {track : Track} {line body : List Char} {runs : List (List Char)}
    (hline : IsLineFor track line body) (hruns : Runs body runs) :
    (Line.ofChars line).faults = invalidTokens track runs := by
  rw [ofChars_isLineFor hline, Line.faults, invalidTokens, tokens, words_trimEnd, hruns.words_eq]

/-- The next line for a track is the first one after lines that are not for it. -/
theorem nextFor?_append {track : Track} {before : List Line} (h : bodies track before = [])
    (number : Nat) (lines : List Line) :
    nextFor? track number (before ++ lines) = nextFor? track (number + before.length) lines := by
  induction before generalizing number with
  | nil => rfl
  | cons line before ih =>
    rw [bodies_cons, List.append_eq_nil_iff] at h
    obtain ⟨hline, hbefore⟩ := h
    rw [Option.toList_eq_nil_iff] at hline
    rw [List.cons_append, nextFor?, hline, Option.isSome_none, if_neg Bool.false_ne_true,
      ih hbefore, List.length_cons, Nat.add_right_comm, Nat.add_assoc]

/-- The faults that are read off a line and the lines after it are the line's. -/
theorem FaultsOf.allFaults_eq {number : Nat} {later : List (List Char)} {line : List Char}
    {faults : List Fault} (h : FaultsOf number later line faults) :
    (Line.ofChars line).allFaults number (later.map Line.ofChars) = faults := by
  cases h with
  | blank hgap =>
    rw [ofChars_gap hgap]
    rfl
  | comment hcomment =>
    rw [ofChars_comment hcomment]
    rfl
  | malformed hgap hcomment hcolon =>
    rw [ofChars_malformed hgap hcomment hcolon]
    rfl
  | unknownTrack hcomment hcolon hname =>
    rw [ofChars_unknownTrack hcomment hcolon hname]
    rfl
  | @last track _ _ runs hline hruns hlater =>
    rw [Line.allFaults, faults_isLineFor hline hruns, ofChars_isLineFor hline,
      replaced?_eq_none_iff.mpr (bodies_map_ofChars_eq_nil_iff.mpr hlater)]
    exact List.append_nil _
  | @replaced track _ _ next nextBody runs between rest hline hruns hlater hbetween hnext =>
    have hreplaced : (Line.ofChars line).replaced? number (later.map Line.ofChars) =
        some (.overridden track (number + 1 + between.length)) := by
      rw [ofChars_isLineFor hline, Line.replaced?, hlater, List.map_append, List.map_cons,
        ofChars_isLineFor hnext, nextFor?_append (bodies_map_ofChars_eq_nil_iff.mpr hbetween),
        List.length_map, nextFor?, bodyFor?_forTrack]
      rfl
    rw [Line.allFaults, faults_isLineFor hline hruns, hreplaced]
    rfl

/-- Of lines among which one is for a track, there is a first. -/
theorem exists_first_isLineFor {track : Track} {lines : List (List Char)}
    (h : ¬ ∀ line ∈ lines, ∀ body, ¬ IsLineFor track line body) :
    ∃ before line after body, lines = before ++ line :: after ∧
      (∀ other ∈ before, ∀ body, ¬ IsLineFor track other body) ∧ IsLineFor track line body := by
  induction lines with
  | nil => exact absurd (fun _ hmem => absurd hmem List.not_mem_nil) h
  | cons line later ih =>
    by_cases hline : ∃ body, IsLineFor track line body
    · obtain ⟨body, hbody⟩ := hline
      exact ⟨[], line, later, body, rfl, fun _ hmem => absurd hmem List.not_mem_nil, hbody⟩
    · have hnone : ∀ body, ¬ IsLineFor track line body := not_exists.mp hline
      obtain ⟨before, next, after, body, rfl, hbefore, hnext⟩ :=
        ih fun hlater => h (List.forall_mem_cons.mpr ⟨hnone, hlater⟩)
      exact ⟨line :: before, next, after, body, rfl, List.forall_mem_cons.mpr ⟨hnone, hbefore⟩,
        hnext⟩

/-- Every line is of one of the kinds. -/
theorem exists_faultsOf (number : Nat) (later : List (List Char)) (line : List Char) :
    ∃ faults, FaultsOf number later line faults := by
  by_cases hgap : IsGap line
  · exact ⟨_, .blank hgap⟩
  by_cases hcomment : IsCommentLine line
  · exact ⟨_, .comment hcomment⟩
  by_cases hcolon : ':' ∈ line
  · obtain ⟨head, body, rfl, hhead⟩ := List.eq_append_cons_of_mem hcolon
    by_cases hname : ∃ track, Names track head
    · obtain ⟨track, hnames⟩ := hname
      have hline : IsLineFor track (head ++ ':' :: body) body := ⟨head, hnames, rfl⟩
      by_cases hlater : ∀ other ∈ later, ∀ body, ¬ IsLineFor track other body
      · exact ⟨_, .last hline (runs_words body) hlater⟩
      · obtain ⟨between, next, rest, nextBody, heq, hbetween, hnext⟩ :=
          exists_first_isLineFor hlater
        exact ⟨_, .replaced hline (runs_words body) heq hbetween hnext⟩
    · exact ⟨_, .unknownTrack hcomment hhead (not_exists.mp hname)⟩
  · exact ⟨_, .malformed hgap hcomment hcolon⟩

/-- The faults of a line are read off it and the lines after it. -/
theorem faultsOf_iff {number : Nat} {later : List (List Char)} {line : List Char}
    {faults : List Fault} : FaultsOf number later line faults ↔
      (Line.ofChars line).allFaults number (later.map Line.ofChars) = faults := by
  constructor
  · exact FaultsOf.allFaults_eq
  · rintro rfl
    obtain ⟨faults, hfaults⟩ := exists_faultsOf number later line
    rwa [hfaults.allFaults_eq]

/-! ## Line by line -/

/-- The diagnostics of some lines, those of each line in turn; the lines are numbered from a given
number on. -/
inductive Advised : Nat → List (List Char) → List Diagnostic → Prop where
  | nil {number : Nat} : Advised number [] []
  | cons {number : Nat} {line : List Char} {later : List (List Char)} {faults : List Fault}
      {diagnostics : List Diagnostic} (hline : FaultsOf number later line faults)
      (hlater : Advised (number + 1) later diagnostics) :
      Advised number (line :: later) (faults.map (⟨number, ·⟩) ++ diagnostics)

theorem advised_iff {number : Nat} {lines : List (List Char)} {diagnostics : List Diagnostic} :
    Advised number lines diagnostics ↔ advice number (lines.map Line.ofChars) = diagnostics := by
  constructor
  · intro h
    induction h with
    | nil => rfl
    | cons hline _ ih => rw [List.map_cons, advice, hline.allFaults_eq, ih]
  · rintro rfl
    induction lines generalizing number with
    | nil => exact .nil
    | cons line later ih => exact .cons (faultsOf_iff.mpr rfl) ih

/-- The diagnostics of a text are those of its lines in turn, and no others. -/
theorem check_eq_iff {text : String} {diagnostics : List Diagnostic} :
    check text = diagnostics ↔ Advised 1 (lines text.toList) diagnostics := by
  rw [check_eq_advice, readLines, advised_iff]

/-! ## Lines that are replaced -/

/-- Whether a line is for a track, as it is read. -/
theorem isSome_bodyFor?_ofChars_iff {track : Track} {line : List Char} :
    ((Line.ofChars line).bodyFor? track).isSome ↔ ∃ body, IsLineFor track line body := by
  rw [Option.isSome_iff_exists]
  constructor
  · rintro ⟨_, hbody⟩
    obtain ⟨body, hline, _⟩ := ofChars_eq_forTrack_iff.mp (bodyFor?_eq_some.mp hbody)
    exact ⟨body, hline⟩
  · rintro ⟨body, hline⟩
    exact ⟨_, bodyFor?_eq_some.mpr (ofChars_isLineFor hline)⟩

instance (track : Track) (line : List Char) : Decidable (∃ body, IsLineFor track line body) :=
  decidable_of_iff _ isSome_bodyFor?_ofChars_iff

/-- The numbers of the lines for a track; the lines are numbered from a given number on. -/
def numbersFor (track : Track) : Nat → List (List Char) → List Nat
  | _, [] => []
  | number, line :: later =>
    if ∃ body, IsLineFor track line body then number :: numbersFor track (number + 1) later
    else numbersFor track (number + 1) later

/-- That a line for a given track is replaced: the line's number and that of the other line. -/
def Diagnostic.override? (track : Track) (diagnostic : Diagnostic) : Option (Nat × Nat) :=
  match diagnostic.fault with
  | .overridden other byLine => if other = track then some (diagnostic.line, byLine) else none
  | _ => none

/-- Which lines for a track are replaced, and by which. -/
def overrides (track : Track) (diagnostics : List Diagnostic) : List (Nat × Nat) :=
  diagnostics.filterMap (Diagnostic.override? track)

theorem overrides_append (track : Track) (a b : List Diagnostic) :
    overrides track (a ++ b) = overrides track a ++ overrides track b :=
  List.filterMap_append

/-- The next line for a track is the first that there is. -/
theorem nextFor?_map_ofChars (track : Track) (number : Nat) (lines : List (List Char)) :
    nextFor? track number (lines.map Line.ofChars) = (numbersFor track number lines).head? := by
  induction lines generalizing number with
  | nil => rfl
  | cons line later ih =>
    rw [List.map_cons, nextFor?, numbersFor]
    by_cases hline : ∃ body, IsLineFor track line body
    · rw [if_pos hline, if_pos (isSome_bodyFor?_ofChars_iff.mpr hline)]
      rfl
    · rw [if_neg hline, if_neg (mt isSome_bodyFor?_ofChars_iff.mp hline), ih]

/-- What a line has at fault by itself is not that it is replaced. -/
theorem overrides_faults (track : Track) (number : Nat) (line : Line) :
    overrides track (line.faults.map (⟨number, ·⟩)) = [] := by
  refine List.filterMap_eq_nil_iff.mpr fun diagnostic hmem => ?_
  obtain ⟨fault, hfault, rfl⟩ := List.mem_map.mp hmem
  cases line with
  | skip => exact absurd hfault List.not_mem_nil
  | forTrack other body =>
    obtain ⟨token, _, rfl⟩ := List.mem_map.mp hfault
    rfl
  | _ =>
    obtain rfl := List.mem_singleton.mp hfault
    rfl

/-- A line for a track is replaced if there is a next one, and by that one. -/
theorem overrides_allFaults (track : Track) (number : Nat) (later : List Line) (line : Line) :
    overrides track ((line.allFaults number later).map (⟨number, ·⟩)) =
      if (line.bodyFor? track).isSome then
        (nextFor? track (number + 1) later).toList.map (number, ·)
      else [] := by
  rw [Line.allFaults, List.map_append, overrides_append, overrides_faults, List.nil_append]
  cases line with
  | forTrack other body =>
    by_cases hother : other = track
    · rw [hother, bodyFor?_forTrack, Option.isSome_some, if_pos rfl, Line.replaced?]
      cases nextFor? track (number + 1) later with
      | none => rfl
      | some next => simp [overrides, Diagnostic.override?]
    · have hnone : (Line.forTrack other body).bodyFor? track = none := by
        simp [Line.bodyFor?, hother]
      rw [hnone, Option.isSome_none, if_neg Bool.false_ne_true, Line.replaced?]
      cases nextFor? other (number + 1) later with
      | none => rfl
      | some next => simp [overrides, Diagnostic.override?, hother]
  | _ => rfl

/-- Of the lines for a track, each but the last is replaced, by the next one. -/
theorem overrides_advice (track : Track) (number : Nat) (lines : List (List Char)) :
    overrides track (advice number (lines.map Line.ofChars)) =
      (numbersFor track number lines).zip (numbersFor track number lines).tail := by
  induction lines generalizing number with
  | nil => rfl
  | cons line later ih =>
    rw [List.map_cons, advice, overrides_append, ih, overrides_allFaults, numbersFor,
      nextFor?_map_ofChars]
    by_cases hline : ∃ body, IsLineFor track line body
    · rw [if_pos hline, if_pos (isSome_bodyFor?_ofChars_iff.mpr hline), List.tail_cons]
      -- the pair of the line is in front of those of the lines after it
      cases numbersFor track (number + 1) later <;> rfl
    · rw [if_neg hline, if_neg (mt isSome_bodyFor?_ofChars_iff.mp hline), List.nil_append]

/-! ## Checking -/

/-- `check` gives the diagnostics of the lines in turn, of each its own faults, and no others.  So
they come in the order of the lines, and of the lines for a track all but the last are reported as
replaced, each by the next one. -/
theorem check_goes_line_by_line (text : String) :
    (∀ diagnostics, check text = diagnostics ↔ Advised 1 (lines text.toList) diagnostics) ∧
      (check text).Pairwise (·.line ≤ ·.line) ∧
      ∀ track, overrides track (check text) =
        (numbersFor track 1 (lines text.toList)).zip
          (numbersFor track 1 (lines text.toList)).tail := by
  refine ⟨fun _ => check_eq_iff, ?_, fun track => ?_⟩
  · rw [check_eq_advice]
    exact pairwise_advice 1 _
  · rw [check_eq_advice, readLines, overrides_advice]

/-- The line that replaces another has its own faults after it. -/
example : check "drums: kick zap zap\n// c\nDRUMS : zap\nx\ndrums:" =
    [⟨1, .invalidToken .drums "zap"⟩, ⟨1, .invalidToken .drums "zap"⟩, ⟨1, .overridden .drums 3⟩,
      ⟨3, .invalidToken .drums "zap"⟩, ⟨3, .overridden .drums 5⟩, ⟨4, .malformed⟩] := by
  rw [check_eq_advice]
  decide

end PatternText

end Groovebox
