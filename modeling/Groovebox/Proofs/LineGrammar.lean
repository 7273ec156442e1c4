import Groovebox.Proofs.Clearing
import Groovebox.Proofs.Words
import Mathlib

/-!
# The grammar of pattern lines

A line is for a track if it is the track's name, in small or capital letters, and a colon, with
blanks around the name as one likes; what follows the colon is its body.  `IsLineFor` says so of the
line as it stands, and reading it, which trims it, splits it at its first colon and trims again,
comes to the same (`ofChars_eq_forTrack_iff`).  So the set that a text compiles to is known from the
last line for each track and that line's words (`get?_compile_eq_some_iff`), and from no other line
(`compile_keepLines`).
-/

namespace Groovebox

namespace Text

/-! ## Letters -/

/-- A letter is not blank. -/
theorem isBlank_of_isAlpha {c : Char} (h : c.isAlpha = true) : isBlank c = false := by
  have hcode : 65 ≤ c.toNat ∧ c.toNat ≤ 90 ∨ 97 ≤ c.toNat ∧ c.toNat ≤ 122 := by
    simpa [Char.isAlpha, Char.isUpper, Char.isLower, UInt32.le_iff_toNat_le] using h
  rw [Bool.eq_false_iff]
  unfold isBlank
  simp only [ne_eq, Bool.or_eq_true, Bool.and_eq_true, decide_eq_true_eq, beq_iff_eq]
  omega

/-- What is the same name as a text of letters is a text of letters. -/
theorem isAlpha_of_sameName {a b : List Char} (ha : ∀ c ∈ a, c.toLower.isLower = true)
    (h : sameName a b = true) : ∀ c ∈ b, c.isAlpha = true := by
  intro c hc
  rw [sameName, beq_iff_eq] at h
  have hmem : c.toLower ∈ a.map Char.toLower := by
    rw [h]
    exact List.mem_map_of_mem hc
  obtain ⟨d, hd, heq⟩ := List.mem_map.mp hmem
  rw [← Char.isLower_toLower_eq_isAlpha, ← heq]
  exact ha d hd

end Text

namespace PatternText

open Text

/-! ## Colons -/

/-- A text is split at its first colon. -/
theorem splitColon?_append {head : List Char} (h : ':' ∉ head) (body : List Char) :
    splitColon? (head ++ ':' :: body) = some (head, body) := by
  induction head with
  | nil => rfl
  | cons c head ih =>
    rw [List.mem_cons, not_or] at h
    obtain ⟨hc, hhead⟩ := h
    rw [List.cons_append, splitColon?, ih hhead]
    · rfl
    · exact fun heq => hc heq.symm

theorem splitColon?_eq_none {cs : List Char} (h : ':' ∉ cs) : splitColon? cs = none := by
  induction cs with
  | nil => rfl
  | cons c cs ih =>
    rw [List.mem_cons, not_or] at h
    obtain ⟨hc, hcs⟩ := h
    rw [splitColon?, ih hcs]
    · rfl
    · exact fun heq => hc heq.symm

/-- Whether a text begins with two slashes is known before its first colon. -/
theorem isComment_append_colon (head body : List Char) :
    isComment (head ++ ':' :: body) = isComment head := by
  match head with
  | [] => rfl
  | [c] => simp [isComment]
  | c :: d :: _ =>
    simp only [List.cons_append, isComment]
    split <;> simp_all

theorem isComment_cons_of_ne {c : Char} (h : c ≠ '/') (cs : List Char) :
    isComment (c :: cs) = false := by
  unfold isComment
  split
  · next heq => exact absurd (List.cons.inj heq).1 h
  · rfl

/-! ## Names -/

/-- A text is the name of a track, in small or capital letters, with blanks around it. -/
def Names (track : Track) (head : List Char) : Prop :=
  ∃ before name after, IsGap before ∧ IsGap after ∧
    sameName track.name.toList name = true ∧ head = before ++ name ++ after

/-- A name is a word of letters. -/
theorem isAlpha_of_names {track : Track} {name : List Char}
    (h : sameName track.name.toList name = true) : ∀ c ∈ name, c.isAlpha = true := by
  have hsmall : track.name.toList.all (·.toLower.isLower) = true := by
    cases track <;> decide
  exact isAlpha_of_sameName (List.all_eq_true.mp hsmall) h

theorem isWord_of_names {track : Track} {name : List Char}
    (h : sameName track.name.toList name = true) : IsWord name := by
  refine ⟨?_, fun c hc => isBlank_of_isAlpha (isAlpha_of_names h c hc)⟩
  rintro rfl
  cases track <;> cases h

/-- Trimming a text shows whether it is a name. -/
theorem names_iff {track : Track} {head : List Char} :
    Names track head ↔ sameName track.name.toList (trim head) = true := by
  constructor
  · rintro ⟨before, name, after, hbefore, hafter, hname, rfl⟩
    rwa [trim_word hbefore (isWord_of_names hname) hafter]
  · intro hname
    obtain ⟨before, after, hbefore, hafter, heq⟩ := exists_gap_append_trim head
    exact ⟨before, trim head, after, hbefore, hafter, hname, heq⟩

theorem Names.colon_not_mem {track : Track} {head : List Char} (h : Names track head) :
    ':' ∉ head := by
  obtain ⟨before, name, after, hbefore, hafter, hname, rfl⟩ := h
  have hblank : isBlank ':' = false := by decide
  rw [List.mem_append, List.mem_append]
  rintro ((hmem | hmem) | hmem)
  · exact hbefore.not_mem hblank hmem
  · have halpha := isAlpha_of_names hname ':' hmem
    revert halpha
    decide
  · exact hafter.not_mem hblank hmem

/-- No name begins like a comment. -/
theorem Names.isComment_trimStart {track : Track} {head : List Char} (h : Names track head) :
    isComment (trimStart head) = false := by
  obtain ⟨before, name, after, hbefore, _, hname, rfl⟩ := h
  have hword := isWord_of_names hname
  rw [trimStart_word hbefore hword]
  cases name with
  | nil => exact absurd rfl hword.1
  | cons c name =>
    have halpha := isAlpha_of_names hname c List.mem_cons_self
    refine isComment_cons_of_ne ?_ _
    rintro rfl
    revert halpha
    decide

/-- A track is found by its name. -/
theorem ofName?_eq_some_iff {track : Track} {name : List Char} :
    Track.ofName? name = some track ↔ sameName track.name.toList name = true := by
  constructor
  · intro h
    have hname := List.find?_some h
    exact hname
  · intro h
    cases hfind : Track.ofName? name with
    | none => exact absurd h (List.find?_eq_none.mp hfind track (Track.mem_all track))
    | some other =>
      have hother := List.find?_some hfind
      rw [sameName, beq_iff_eq] at h hother
      -- no two tracks have the same name
      have hsame := hother.trans h.symm
      congr 1
      revert hsame
      cases other <;> cases track <;> decide

/-! ## Lines for a track -/

/-- A line is for a track: the track's name, a colon and then the line's body. -/
def IsLineFor (track : Track) (line body : List Char) : Prop :=
  ∃ head, Names track head ∧ line = head ++ ':' :: body

/-- What stands before the first colon has to be the name. -/
theorem isLineFor_append_colon {track : Track} {head rest body : List Char} (h : ':' ∉ head) :
    IsLineFor track (head ++ ':' :: rest) body ↔ Names track head ∧ body = rest := by
  constructor
  · rintro ⟨head', hnames, heq⟩
    have hsplit := splitColon?_append h rest
    rw [heq, splitColon?_append hnames.colon_not_mem] at hsplit
    cases hsplit
    exact ⟨hnames, rfl⟩
  · rintro ⟨hnames, rfl⟩
    exact ⟨head, hnames, rfl⟩

/-- A comment is for no track. -/
theorem not_isLineFor_comment {gap : List Char} (hgap : IsGap gap) (track : Track)
    (rest body : List Char) : ¬ IsLineFor track (gap ++ '/' :: '/' :: rest) body := by
  rintro ⟨head, hnames, heq⟩
  have hslash : isBlank '/' = false := by decide
  have hcolon : isBlank ':' = false := by decide
  -- the line begins with two slashes, and so would its name
  have hstart := congrArg (fun cs => isComment (trimStart cs)) heq
  rw [trimStart_append_cons hslash, trimStart_gap hgap, trimStart_append_cons hcolon,
    isComment_append_colon, hnames.isComment_trimStart] at hstart
  cases hstart

theorem colon_mem_of_isLineFor {track : Track} {line body : List Char}
    (h : IsLineFor track line body) : ':' ∈ line := by
  obtain ⟨head, _, rfl⟩ := h
  exact List.mem_append_right _ List.mem_cons_self

/-- How a line with a colon is read. -/
theorem ofChars_append_colon {head : List Char} (h : ':' ∉ head) (body : List Char) :
    Line.ofChars (head ++ ':' :: body) =
      if isComment (trimStart head) then .skip
      else match Track.ofName? (trim head) with
        | some track => .forTrack track (trimEnd body)
        | none => .unknownTrack (trim head) := by
  have hblank : isBlank ':' = false := by decide
  have htrim : trim (head ++ ':' :: body) = trimStart head ++ ':' :: trimEnd body := by
    rw [trim, trimStart_append_cons hblank, trimEnd_append_cons hblank]
  have hstart : ':' ∉ trimStart head := fun hmem => h (mem_of_mem_trimStart hmem)
  have hne : (trimStart head ++ ':' :: trimEnd body).isEmpty = false := by simp
  unfold Line.ofChars
  dsimp only
  rw [htrim, hne, Bool.false_or, isComment_append_colon, splitColon?_append hstart]
  rfl

/-- How a line without a colon is read. -/
theorem ofChars_of_colon_not_mem {line : List Char} (h : ':' ∉ line) :
    Line.ofChars line =
      if (trim line).isEmpty || isComment (trim line) then .skip else .malformed := by
  have hsplit : splitColon? (trim line) = none :=
    splitColon?_eq_none fun hmem => h (mem_of_mem_trim hmem)
  unfold Line.ofChars
  dsimp only
  rw [hsplit]

/-- A line is read as one for a track if and only if it is one; its body loses the blanks at the
end. -/
theorem ofChars_eq_forTrack_iff {track : Track} {line body : List Char} :
    Line.ofChars line = .forTrack track body ↔
      ∃ rest, IsLineFor track line rest ∧ body = trimEnd rest := by
  by_cases hcolon : ':' ∈ line
  · obtain ⟨head, rest, rfl, hhead⟩ := List.eq_append_cons_of_mem hcolon
    rw [ofChars_append_colon hhead]
    constructor
    · intro h
      split at h
      · cases h
      · split at h
        · next other hname =>
          cases h
          have hnames := names_iff.mpr (ofName?_eq_some_iff.mp hname)
          exact ⟨rest, (isLineFor_append_colon hhead).mpr ⟨hnames, rfl⟩, rfl⟩
        · cases h
    · rintro ⟨rest', hline, rfl⟩
      obtain ⟨hnames, rfl⟩ := (isLineFor_append_colon hhead).mp hline
      rw [if_neg (by simp [hnames.isComment_trimStart]),
        ofName?_eq_some_iff.mpr (names_iff.mp hnames)]
  · rw [ofChars_of_colon_not_mem hcolon]
    constructor
    · intro h
      split at h <;> cases h
    · rintro ⟨rest, hline, _⟩
      exact absurd (colon_mem_of_isLineFor hline) hcolon

theorem ofChars_isLineFor {track : Track} {line body : List Char} (h : IsLineFor track line body) :
    Line.ofChars line = .forTrack track (trimEnd body) :=
  ofChars_eq_forTrack_iff.mpr ⟨body, h, rfl⟩

/-! ## Compiling line by line -/

/-- The step that a word stands for: the dash alone is a rest, and any other word is to be played as
it is written. -/
def stepOfWord (w : List Char) : StepToken :=
  if w = ['-'] then .rest else .play (String.ofList w)

theorem ofString_ofList (w : List Char) : StepToken.ofString (String.ofList w) = stepOfWord w := by
  have hdash : String.ofList w = StepToken.restText ↔ w = ['-'] := String.ofList_inj
  unfold StepToken.ofString stepOfWord
  simp only [hdash]

/-- The steps that a body is compiled to. -/
theorem steps_ofWords_tokens (body : List Char) :
    (Pattern.ofWords (tokens body)).steps = (words body).map stepOfWord := by
  show ((words body).map String.ofList).map StepToken.ofString = _
  rw [List.map_map]
  exact List.map_congr_left fun w _ => ofString_ofList w

/-- Lines of which none is for a track. -/
theorem bodies_map_ofChars_eq_nil_iff {track : Track} {lines : List (List Char)} :
    bodies track (lines.map Line.ofChars) = [] ↔
      ∀ line ∈ lines, ∀ body, ¬ IsLineFor track line body := by
  rw [bodies, List.filterMap_map, List.filterMap_eq_nil_iff]
  refine forall₂_congr fun line _ => ?_
  rw [Function.comp_apply, Option.eq_none_iff_forall_ne_some]
  constructor
  · intro h body hline
    exact h _ (bodyFor?_eq_some.mpr (ofChars_eq_forTrack_iff.mpr ⟨body, hline, rfl⟩))
  · intro h body hbody
    obtain ⟨rest, hline, _⟩ := ofChars_eq_forTrack_iff.mp (bodyFor?_eq_some.mp hbody)
    exact h rest hline

/-- A compiled set holds the pattern that the last line for a track says. -/
theorem get?_compile_eq_some_iff {text : String} {track : Track} {pattern : Pattern} :
    (compile text).get? track = some pattern ↔
      ∃ before line later body, lines text.toList = before ++ line :: later ∧
        IsLineFor track line body ∧ (∀ other ∈ later, ∀ body, ¬ IsLineFor track other body) ∧
        pattern.steps = (words body).map stepOfWord := by
  constructor
  · intro h
    rw [get?_compile, Option.map_eq_some_iff] at h
    obtain ⟨trimmed, hlast, rfl⟩ := h
    obtain ⟨_, _, hread, hlater⟩ := getLast?_bodies_eq_some_iff.mp hlast
    obtain ⟨before, _, hlines, rfl, hrest⟩ := List.map_eq_append_iff.mp hread
    obtain ⟨line, later, rfl, hline, rfl⟩ := List.map_eq_cons_iff.mp hrest
    obtain ⟨body, hfor, rfl⟩ := ofChars_eq_forTrack_iff.mp hline
    refine ⟨before, line, later, body, hlines, hfor, bodies_map_ofChars_eq_nil_iff.mp hlater, ?_⟩
    rw [steps_ofWords_tokens, words_trimEnd]
  · rintro ⟨before, line, later, body, hlines, hfor, hlater, hsteps⟩
    have hline := ofChars_isLineFor hfor
    have hread : readLines text =
        before.map Line.ofChars ++ .forTrack track (trimEnd body) :: later.map Line.ofChars := by
      rw [readLines, hlines, List.map_append, List.map_cons, hline]
    rw [get?_compile_of_last hread (bodies_map_ofChars_eq_nil_iff.mpr hlater)]
    rw [← words_trimEnd, ← steps_ofWords_tokens] at hsteps
    cases pattern
    exact congrArg (some ∘ Pattern.mk) hsteps.symm

/-- Whether a compiled set holds a pattern for a track. -/
theorem contains_compile_iff {text : String} {track : Track} :
    (compile text).contains track = true ↔
      ∃ line ∈ lines text.toList, ∃ body, IsLineFor track line body := by
  have hbodies : (compile text).contains track = true ↔
      bodies track ((lines text.toList).map Line.ofChars) ≠ [] := by
    rw [PatternSet.contains, get?_compile, Option.isSome_map, List.getLast?_isSome, readLines]
  rw [hbodies, Ne, bodies_map_ofChars_eq_nil_iff]
  push Not
  rfl

/-- The lines for a track stay when lines that are for none go. -/
theorem bodies_keepNumbered_of_kept {keep : Nat → Bool} {track : Track} {lines : List Line}
    {start : Nat} (h : ∀ i body, lines[i]? = some (.forTrack track body) →
      keep (start + i) = true) :
    bodies track (keepNumbered keep start lines) = bodies track lines := by
  induction lines generalizing start with
  | nil => rfl
  | cons line rest ih =>
    have hrest : bodies track (keepNumbered keep (start + 1) rest) = bodies track rest := by
      refine ih fun i body hi => ?_
      rw [Nat.add_assoc, Nat.add_comm 1 i]
      exact h (i + 1) body hi
    rw [keepNumbered, bodies_cons]
    split
    · rw [bodies_cons, hrest]
    · next hgone =>
      cases hbody : line.bodyFor? track with
      | none => exact hrest
      | some body =>
        rw [bodyFor?_eq_some] at hbody
        exact absurd (h 0 body (congrArg some hbody)) hgone

/-- Lines that are for no track may be deleted. -/
theorem compile_keepLines {text : String} {keep : Nat → Bool}
    (h : ∀ i line, (lines text.toList)[i]? = some line →
      (∃ track body, IsLineFor track line body) → keep (i + 1) = true) :
    compile (String.ofList (keepLines keep text.toList)) = compile text := by
  refine PatternSet.ext_get? fun track => ?_
  rw [get?_compile, get?_compile, readLines_keepLines, bodies_keepNumbered_of_kept]
  intro i body hi
  rw [readLines, List.getElem?_map, Option.map_eq_some_iff] at hi
  obtain ⟨line, hline, hread⟩ := hi
  obtain ⟨rest, hfor, _⟩ := ofChars_eq_forTrack_iff.mp hread
  rw [Nat.add_comm]
  exact h i line hline ⟨track, rest, hfor⟩

/-! ## The grammar -/

/-- A text compiles to the patterns that the last line for each track says: the maximal blank-free
runs of its body, each as written and the dash as a rest.  A set holds a pattern for exactly those
tracks that have a line, be it an empty one.  All other lines may as well not be there, such as
comments and lines with something else than a name before their first colon. -/
theorem compile_reads_line_grammar (text : String) :
    (∀ track pattern, (compile text).get? track = some pattern ↔
      ∃ before line later body runs, lines text.toList = before ++ line :: later ∧
        IsLineFor track line body ∧ (∀ other ∈ later, ∀ body, ¬ IsLineFor track other body) ∧
        Runs body runs ∧ pattern.steps = runs.map stepOfWord) ∧
    (∀ track, (compile text).contains track = true ↔
      ∃ line ∈ lines text.toList, ∃ body, IsLineFor track line body) ∧
    (∀ track before line later body, lines text.toList = before ++ line :: later →
      IsLineFor track line body → (∀ other ∈ later, ∀ body, ¬ IsLineFor track other body) →
        IsGap body → (compile text).get? track = some ⟨[]⟩) ∧
    (∀ keep : Nat → Bool, (∀ i line, (lines text.toList)[i]? = some line →
        (∃ track body, IsLineFor track line body) → keep (i + 1) = true) →
      compile (String.ofList (keepLines keep text.toList)) = compile text) ∧
    (∀ track gap rest body, IsGap gap → ¬ IsLineFor track (gap ++ '/' :: '/' :: rest) body) ∧
    ∀ track head rest body, ':' ∉ head →
      (IsLineFor track (head ++ ':' :: rest) body ↔ Names track head ∧ body = rest) := by
  refine ⟨?_, fun _ => contains_compile_iff, ?_, fun _ => compile_keepLines,
    fun track _ rest body hgap => not_isLineFor_comment hgap track rest body,
    fun _ _ _ _ => isLineFor_append_colon⟩
  · intro track pattern
    rw [get?_compile_eq_some_iff]
    constructor
    · rintro ⟨before, line, later, body, hlines, hfor, hlater, hsteps⟩
      exact ⟨before, line, later, body, words body, hlines, hfor, hlater, runs_words body, hsteps⟩
    · rintro ⟨before, line, later, body, runs, hlines, hfor, hlater, hruns, hsteps⟩
      rw [← hruns.words_eq] at hsteps
      exact ⟨before, line, later, body, hlines, hfor, hlater, hsteps⟩
  · intro track before line later body hlines hfor hlater hgap
    refine get?_compile_eq_some_iff.mpr ⟨before, line, later, body, hlines, hfor, hlater, ?_⟩
    rw [(Runs.gap hgap).words_eq]
    rfl

/-- A name may be in capital letters; the second line is a comment, and the third no track's. -/
example : compile " BASS :  C2 -\n// drums: kick\nbas s: E2" =
    ⟨none, some ⟨[.play "C2", .rest]⟩, none⟩ := by
  decide

end PatternText

end Groovebox
