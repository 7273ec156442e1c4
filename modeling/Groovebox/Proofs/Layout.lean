import Groovebox.Proofs.LineFaults

/-!
# The layout of a text

How a text is laid out does not matter to what it says.  Lines are trimmed before they are read, so
it makes no difference whether they end in a line feed alone or have a carriage return before it,
be there others already (`readLines_withReturns`).  A text may be edited step by step: the name of
a line may be written in other letters, there may be other gaps around the name, the colon and the
tokens, and blank lines and comments may be put between lines.  No such `Edit` changes the patterns
that the lines say (`Edit.patternsFor_eq`), so that the set stays the same.
-/

namespace Groovebox

namespace Text

/-! ## Letter case -/

/-- The codes of the capital letters. -/
theorem toNat_of_isUpper {c : Char} (h : c.isUpper = true) : 65 ≤ c.toNat ∧ c.toNat ≤ 90 := by
  simpa [Char.isUpper, UInt32.le_iff_toNat_le] using h

theorem toNat_toLower {c : Char} (h : c.isUpper = true) : c.toLower.toNat = c.toNat + 32 := by
  obtain ⟨_, hcode⟩ := toNat_of_isUpper h
  have hvalid : (c.toNat + 32).isValidChar := Or.inl (by omega)
  rw [Char.toLower_eq_of_isUpper h, Char.toNat_ofNat, if_pos hvalid]

/-- A character stays blank or not when it is written small. -/
theorem isBlank_toLower (c : Char) : isBlank c.toLower = isBlank c := by
  by_cases hupper : c.isUpper = true
  · have hcode := toNat_of_isUpper hupper
    rw [Bool.eq_iff_iff]
    simp only [isBlank, toNat_toLower hupper, Bool.or_eq_true, Bool.and_eq_true, decide_eq_true_eq,
      beq_iff_eq]
    omega
  · rw [Char.toLower_eq_of_not_isUpper hupper]

theorem trimStart_map_toLower (cs : List Char) :
    trimStart (cs.map Char.toLower) = (trimStart cs).map Char.toLower := by
  have hblank : isBlank ∘ Char.toLower = isBlank := funext isBlank_toLower
  rw [trimStart, List.dropWhile_map, hblank, trimStart]

theorem trim_map_toLower (cs : List Char) :
    trim (cs.map Char.toLower) = (trim cs).map Char.toLower := by
  rw [trim, trimEnd_eq_reverse, trimStart_map_toLower, ← List.map_reverse, trimStart_map_toLower,
    ← List.map_reverse, ← trimEnd_eq_reverse, trim]

/-- Names that are the same are so when they are trimmed. -/
theorem sameName_trim {a b : List Char} (h : sameName a b = true) :
    sameName (trim a) (trim b) = true := by
  rw [sameName, beq_iff_eq] at h ⊢
  rw [← trim_map_toLower, h, trim_map_toLower]

/-- Letters become no colon when they are written small. -/
theorem colon_not_mem_of_sameName {a b : List Char} (ha : ':' ∉ a) (h : sameName a b = true) :
    ':' ∉ b := by
  intro hb
  rw [sameName, beq_iff_eq] at h
  have hmem : ':' ∈ a.map Char.toLower := by
    rw [h]
    exact List.mem_map.mpr ⟨':', hb, rfl⟩
  obtain ⟨c, hc, hlower⟩ := List.mem_map.mp hmem
  by_cases hupper : c.isUpper = true
  · have hcode := toNat_toLower hupper
    rw [hlower] at hcode
    have hrange := toNat_of_isUpper hupper
    have hcolon : ':'.toNat = 58 := rfl
    omega
  · rw [Char.toLower_eq_of_not_isUpper hupper] at hlower
    exact ha (hlower ▸ hc)

/-! ## Line ends -/

/-- A line end is a gap. -/
theorem exists_withoutEnd_append_gap (p : List Char) :
    ∃ gap, IsGap gap ∧ p = withoutEnd p ++ gap := by
  fun_induction withoutEnd p with
  | case1 => exact ⟨[], isGap_nil, rfl⟩
  | case2 => exact ⟨['\n'], isGap_nil.cons rfl, rfl⟩
  | case3 => exact ⟨['\r', '\n'], (isGap_nil.cons rfl).cons rfl, rfl⟩
  | case4 c cs _ _ ih =>
    obtain ⟨gap, hgap, heq⟩ := ih
    exact ⟨gap, hgap, congrArg (c :: ·) heq⟩

/-- The text with a carriage return put before each line feed. -/
def withReturns (cs : List Char) : List Char :=
  cs.flatMap fun c => if c = '\n' then ['\r', '\n'] else [c]

theorem withReturns_eq_self {cs : List Char} (h : '\n' ∉ cs) : withReturns cs = cs := by
  induction cs with
  | nil => rfl
  | cons c cs ih =>
    rw [List.mem_cons, not_or] at h
    obtain ⟨hc, hcs⟩ := h
    rw [withReturns, List.flatMap_cons, if_neg (Ne.symm hc), ← withReturns, ih hcs]
    rfl

theorem pieces_withReturns (cs : List Char) :
    pieces (withReturns cs) = (pieces cs).map withReturns := by
  induction cs with
  | nil => rfl
  | cons c cs ih =>
    rw [withReturns, List.flatMap_cons, ← withReturns]
    by_cases hc : c = '\n'
    · rw [hc, if_pos rfl, pieces, List.map_cons, ← ih]
      rfl
    · rw [if_neg hc, List.singleton_append, pieces_cons_of_ne hc, ih, pieces_cons_of_ne hc]
      cases pieces cs with
      | nil => simp [withReturns, hc]
      | cons p ps => simp [withReturns, hc]

/-- A piece of a text is trimmed alike when a carriage return is put before its line feed. -/
theorem trim_withReturns {p : List Char} (h : '\n' ∉ p.dropLast) :
    trim (withReturns p) = trim p := by
  rcases List.eq_nil_or_concat' p with rfl | ⟨front, c, rfl⟩
  · rfl
  · rw [List.dropLast_concat] at h
    rw [withReturns, List.flatMap_append, ← withReturns, withReturns_eq_self h]
    by_cases hc : c = '\n'
    · have hend : IsGap ['\n'] := isGap_nil.cons rfl
      rw [hc, trim_append_gap hend]
      exact trim_append_gap (hend.cons rfl) front
    · simp [hc]

/-! ## Lines put together -/

/-- What comes before a line. -/
def LineStart (before : List Char) : Prop :=
  ∀ c ∈ before.getLast?, c = '\n'

/-- What comes after a line. -/
def LineEnd (rest : List Char) : Prop :=
  ∀ c ∈ rest.head?, c = '\n'

theorem lineStart_nil : LineStart [] :=
  fun _ h => by cases h

theorem lineStart_append_lineFeed (text : List Char) : LineStart (text ++ ['\n']) := by
  intro c hc
  rw [List.getLast?_concat] at hc
  exact (Option.some.inj hc).symm

theorem lineEnd_nil : LineEnd [] :=
  fun _ h => by cases h

theorem lineEnd_lineFeed (rest : List Char) : LineEnd ('\n' :: rest) :=
  fun _ h => (Option.some.inj h).symm

/-- A text is cut before a line, and nothing is joined over the cut. -/
theorem pieces_append_of_lineStart {before : List Char} (h : LineStart before) (cs : List Char) :
    pieces (before ++ cs) = pieces before ++ pieces cs := by
  induction before with
  | nil => rfl
  | cons c before ih =>
    have hbefore : LineStart before := by
      cases before with
      | nil => exact lineStart_nil
      | cons d before => exact h
    rw [List.cons_append]
    by_cases hc : c = '\n'
    · rw [hc, pieces, pieces, ih hbefore, List.cons_append]
    · rw [pieces_cons_of_ne hc, pieces_cons_of_ne hc, ih hbefore]
      cases hpieces : pieces before with
      | nil =>
        -- the line feed that comes before the cut is in some piece
        have hnil := flatten_pieces before
        rw [hpieces, List.flatten_nil] at hnil
        rw [← hnil] at h
        exact absurd (h c rfl) hc
      | cons p ps => rfl

/-- Every text is some whole lines and what comes after the last line feed. -/
theorem exists_lineStart_append (text : List Char) :
    ∃ before line, LineStart before ∧ '\n' ∉ line ∧ text = before ++ line := by
  induction text using List.reverseRecOn with
  | nil => exact ⟨[], [], lineStart_nil, List.not_mem_nil, rfl⟩
  | append_singleton text c ih =>
    by_cases hc : c = '\n'
    · rw [hc]
      exact ⟨text ++ ['\n'], [], lineStart_append_lineFeed text, List.not_mem_nil,
        (List.append_nil _).symm⟩
    · obtain ⟨before, line, hbefore, hline, rfl⟩ := ih
      refine ⟨before, line ++ [c], hbefore, ?_, List.append_assoc before line [c]⟩
      rw [List.mem_append, List.mem_singleton]
      rintro (h | h)
      · exact hline h
      · exact hc h.symm

end Text

namespace PatternText

open Text

/-! ## What pieces say -/

/-- A gap at the end of a line makes no difference. -/
theorem ofChars_append_gap {gap : List Char} (h : IsGap gap) (line : List Char) :
    Line.ofChars (line ++ gap) = Line.ofChars line := by
  unfold Line.ofChars
  dsimp only
  rw [trim_append_gap h]

/-- The lines of a text may be read with their line ends. -/
theorem readLines_eq_map_pieces (text : String) :
    readLines text = (pieces text.toList).map Line.ofChars := by
  rw [readLines, lines_eq_map_pieces, List.map_map]
  refine List.map_congr_left fun p _ => ?_
  obtain ⟨gap, hgap, heq⟩ := exists_withoutEnd_append_gap p
  conv_rhs => rw [heq, ofChars_append_gap hgap]
  rfl

/-- The lines of a text are read alike when a carriage return is put before each line feed. -/
theorem readLines_withReturns (text : String) :
    readLines (String.ofList (withReturns text.toList)) = readLines text := by
  rw [readLines_eq_map_pieces, readLines_eq_map_pieces, String.toList_ofList, pieces_withReturns,
    List.map_map]
  refine List.map_congr_left fun p hp => ?_
  have htrim := trim_withReturns ((cutAtEnds_pieces text.toList).not_mem_dropLast p hp)
  unfold Line.ofChars
  dsimp only [Function.comp_apply]
  rw [htrim]

/-- The pattern that a line says for a track, if it is for the track. -/
def patternOf? (track : Track) (line : List Char) : Option Pattern :=
  ((Line.ofChars line).bodyFor? track).map fun body => Pattern.ofWords (tokens body)

/-- The patterns that the lines of a text say for a track, one after another. -/
def patternsFor (track : Track) (text : List Char) : List Pattern :=
  (pieces text).filterMap (patternOf? track)

/-- The last pattern stands. -/
theorem get?_compile_eq_getLast? (text : String) (track : Track) :
    (compile text).get? track = (patternsFor track text.toList).getLast? := by
  rw [get?_compile, readLines_eq_map_pieces, bodies, List.filterMap_map, ← List.getLast?_map,
    List.map_filterMap]
  rfl

theorem compile_eq_of_patternsFor {a b : String}
    (h : ∀ track, patternsFor track a.toList = patternsFor track b.toList) :
    compile a = compile b := by
  refine PatternSet.ext_get? fun track => ?_
  rw [get?_compile_eq_getLast?, get?_compile_eq_getLast?, h]

theorem patternOf?_append_gap {gap : List Char} (h : IsGap gap) (track : Track)
    (line : List Char) : patternOf? track (line ++ gap) = patternOf? track line := by
  rw [patternOf?, ofChars_append_gap h, patternOf?]

theorem patternOf?_eq_some_iff {track : Track} {line : List Char} {pattern : Pattern} :
    patternOf? track line = some pattern ↔
      ∃ body, IsLineFor track line body ∧ Pattern.ofWords (tokens body) = pattern := by
  have htokens : ∀ body, tokens (trimEnd body) = tokens body := by
    intro body
    rw [tokens, words_trimEnd, tokens]
  rw [patternOf?, Option.map_eq_some_iff]
  constructor
  · rintro ⟨_, hbody, rfl⟩
    obtain ⟨body, hline, rfl⟩ := ofChars_eq_forTrack_iff.mp (bodyFor?_eq_some.mp hbody)
    exact ⟨body, hline, by rw [htokens]⟩
  · rintro ⟨body, hline, rfl⟩
    exact ⟨_, bodyFor?_eq_some.mpr (ofChars_isLineFor hline), by rw [htokens]⟩

theorem patternOf?_colon_eq_some_iff {track : Track} {head body : List Char} {pattern : Pattern}
    (hcolon : ':' ∉ head) : patternOf? track (head ++ ':' :: body) = some pattern ↔
      Names track head ∧ Pattern.ofWords (tokens body) = pattern := by
  rw [patternOf?_eq_some_iff]
  constructor
  · rintro ⟨rest, hline, hpattern⟩
    obtain ⟨hnames, rfl⟩ := (isLineFor_append_colon hcolon).mp hline
    exact ⟨hnames, hpattern⟩
  · rintro ⟨hnames, hpattern⟩
    exact ⟨body, ⟨head, hnames, rfl⟩, hpattern⟩

/-- A blank line and a comment say nothing. -/
theorem patternOf?_eq_none {line : List Char} (h : IsGap line ∨ IsCommentLine line)
    (track : Track) : patternOf? track line = none := by
  have hskip : Line.ofChars line = .skip := by
    rcases h with hgap | hcomment
    · exact ofChars_gap hgap
    · exact ofChars_comment hcomment
  rw [patternOf?, hskip]
  rfl

/-- A line says what it says whatever stands before and after it. -/
theorem patternsFor_append {before line rest : List Char} (hbefore : LineStart before)
    (hline : '\n' ∉ line) (hrest : LineEnd rest) (track : Track) :
    patternsFor track (before ++ line ++ rest) =
      patternsFor track before ++ (patternOf? track line).toList ++
        patternsFor track rest.tail := by
  rw [patternsFor, List.append_assoc, pieces_append_of_lineStart hbefore, List.filterMap_append,
    ← patternsFor, List.append_assoc]
  congr 1
  cases rest with
  | nil =>
    cases line with
    | nil => cases track <;> rfl
    | cons c line =>
      rw [List.append_nil, pieces_eq_singleton (List.cons_ne_nil c line)
        fun h => hline (List.mem_of_mem_dropLast h), List.filterMap_cons]
      cases patternOf? track (c :: line) <;> rfl
  | cons c rest =>
    obtain rfl : c = '\n' := hrest c rfl
    have hend : IsGap ['\n'] := isGap_nil.cons rfl
    have hpiece : pieces (line ++ '\n' :: rest) = (line ++ ['\n']) :: pieces rest := by
      rw [List.append_cons]
      exact pieces_append (by rwa [List.dropLast_concat]) (by rw [List.getLast?_concat]) rest
    rw [hpiece, List.filterMap_cons, patternOf?_append_gap hend]
    cases patternOf? track line <;> rfl

/-! ## Edits -/

/-- Whether a text is a name does not depend on the gaps around it and on the case of its
letters. -/
theorem names_congr {before name after before' name' after' : List Char} (hbefore : IsGap before)
    (hafter : IsGap after) (hbefore' : IsGap before') (hafter' : IsGap after')
    (hname : sameName name name' = true) (track : Track) :
    Names track (before ++ name ++ after) ↔ Names track (before' ++ name' ++ after') := by
  have htrim := sameName_trim hname
  rw [sameName, beq_iff_eq] at htrim
  rw [names_iff, names_iff, trim_append_gap hafter, trim_gap_append hbefore,
    trim_append_gap hafter', trim_gap_append hbefore', sameName, sameName, htrim]

/-- A line and another one with the same name in letters of either case and the same tokens, with
any gaps around the name, the colon and the tokens. -/
inductive Relaid : List Char → List Char → Prop where
  | intro {before name after body before' name' after' body' : List Char}
      {runs : List (List Char)} (hbefore : IsGap before) (hafter : IsGap after)
      (hbefore' : IsGap before') (hafter' : IsGap after') (hcolon : ':' ∉ name)
      (hname : sameName name name' = true) (hbody : Runs body runs) (hbody' : Runs body' runs) :
      Relaid (before ++ name ++ after ++ ':' :: body) (before' ++ name' ++ after' ++ ':' :: body')

theorem colon_not_mem_of_gaps {before name after : List Char} (hbefore : IsGap before)
    (hafter : IsGap after) (hcolon : ':' ∉ name) : ':' ∉ before ++ name ++ after := by
  have hblank : isBlank ':' = false := by decide
  rw [List.mem_append, List.mem_append]
  rintro ((h | h) | h)
  · exact hbefore.not_mem hblank h
  · exact hcolon h
  · exact hafter.not_mem hblank h

/-- A line that is laid out in another way says the same. -/
theorem Relaid.patternOf?_eq {line line' : List Char} (h : Relaid line line') (track : Track) :
    patternOf? track line' = patternOf? track line := by
  obtain ⟨hbefore, hafter, hbefore', hafter', hcolon, hname, hbody, hbody'⟩ := h
  have hcolon' := colon_not_mem_of_sameName hcolon hname
  refine Option.ext fun pattern => ?_
  rw [patternOf?_colon_eq_some_iff (colon_not_mem_of_gaps hbefore' hafter' hcolon'),
    patternOf?_colon_eq_some_iff (colon_not_mem_of_gaps hbefore hafter hcolon),
    names_congr hbefore hafter hbefore' hafter' hname, tokens, tokens, hbody.words_eq,
    hbody'.words_eq]

/-- A text and the text after one change of its layout: a line is laid out in another way, or a
blank line or a comment is put before a line or after the last one. -/
inductive Edit : List Char → List Char → Prop where
  | relay {before line line' rest : List Char} (hbefore : LineStart before) (hrest : LineEnd rest)
      (hline : '\n' ∉ line) (hline' : '\n' ∉ line') (h : Relaid line line') :
      Edit (before ++ line ++ rest) (before ++ line' ++ rest)
  | insert {before line rest : List Char} (hbefore : LineStart before) (hline : '\n' ∉ line)
      (h : IsGap line ∨ IsCommentLine line) :
      Edit (before ++ rest) (before ++ line ++ '\n' :: rest)
  | append {text line : List Char} (hline : '\n' ∉ line) (h : IsGap line ∨ IsCommentLine line) :
      Edit text (text ++ '\n' :: line)

/-- It makes no difference whether the last line has an end. -/
theorem patternsFor_append_lineFeed (track : Track) (text : List Char) :
    patternsFor track (text ++ ['\n']) = patternsFor track text := by
  obtain ⟨before, line, hbefore, hline, rfl⟩ := exists_lineStart_append text
  have hwithout := patternsFor_append hbefore hline lineEnd_nil track
  rw [List.append_nil] at hwithout
  rw [patternsFor_append hbefore hline (lineEnd_lineFeed []) track, hwithout]
  rfl

/-- No change of the layout changes what the lines say. -/
theorem Edit.patternsFor_eq {text text' : List Char} (h : Edit text text') (track : Track) :
    patternsFor track text' = patternsFor track text := by
  cases h with
  | relay hbefore hrest hline hline' h =>
    rw [patternsFor_append hbefore hline' hrest, patternsFor_append hbefore hline hrest,
      h.patternOf?_eq]
  | @insert before line rest hbefore hline h =>
    rw [patternsFor_append hbefore hline (lineEnd_lineFeed rest), patternOf?_eq_none h,
      Option.toList_none, List.append_nil, patternsFor, patternsFor, patternsFor,
      pieces_append_of_lineStart hbefore, List.filterMap_append]
    rfl
  | @append _ line hline h =>
    have happend := patternsFor_append (lineStart_append_lineFeed text) hline lineEnd_nil track
    rw [List.append_nil, patternOf?_eq_none h] at happend
    rw [List.append_cons, happend, patternsFor_append_lineFeed]
    simp [patternsFor, pieces]

/-- What the lines say stays the same through any changes of the layout. -/
theorem patternsFor_eq_of_edits {text text' : List Char} (h : Relation.ReflTransGen Edit text text')
    (track : Track) : patternsFor track text' = patternsFor track text := by
  induction h with
  | refl => rfl
  | tail _ hedit ih => rw [hedit.patternsFor_eq, ih]

/-- A text may have a carriage return before each of its line feeds: the set and all diagnostics
are the same, with the same numbers of lines.  And it may be laid out in another way, line by line,
and have other blank lines and comments: the set is the same. -/
theorem compile_eq_of_layout :
    (∀ text, compile (String.ofList (withReturns text.toList)) = compile text ∧
        check (String.ofList (withReturns text.toList)) = check text) ∧
      ∀ text text' : String, Relation.ReflTransGen Edit text.toList text'.toList →
        compile text' = compile text := by
  refine ⟨fun text => ⟨?_, ?_⟩, fun text text' hedits => ?_⟩
  · rw [compile, readLines_withReturns, compile]
  · rw [check, readLines_withReturns, check]
  · exact compile_eq_of_patternsFor (patternsFor_eq_of_edits hedits)

/-- A text is read alike with a comment before it, the name of its line in capital letters, and a
blank moved from behind the colon to the front. -/
theorem compile_eq_of_layout_bass :
    let text := "bass: C2 -"
    let text' := "// low\nBASS :C2\t-"
    Relation.ReflTransGen Edit text.toList text'.toList ∧ compile text' = compile text := by
  intro text text'
  have hspace : IsGap [' '] := isGap_nil.cons rfl
  have hbody : Runs " C2 -".toList ["C2".toList, "-".toList] := runs_iff.mpr (by decide)
  have hbody' : Runs "C2\t-".toList ["C2".toList, "-".toList] := runs_iff.mpr (by decide)
  have hrelaid : Relaid "bass: C2 -".toList "BASS :C2\t-".toList := by
    simpa using @Relaid.intro [] "bass".toList [] _ [] "BASS".toList [' '] _ _ isGap_nil isGap_nil
      isGap_nil hspace (by decide) (by decide) hbody hbody'
  have hrelay : Edit text.toList "BASS :C2\t-".toList := by
    simpa [text] using Edit.relay lineStart_nil lineEnd_nil (by decide) (by decide) hrelaid
  have hcomment : IsCommentLine "// low".toList := isComment_trim_iff.mp (by decide)
  have hinsert : Edit "BASS :C2\t-".toList text'.toList := by
    simpa [text'] using Edit.insert lineStart_nil (by decide) (.inr hcomment)
  have hedits := (Relation.ReflTransGen.single hrelay).tail hinsert
  exact ⟨hedits, compile_eq_of_layout.2 text text' hedits⟩

end PatternText

end Groovebox
