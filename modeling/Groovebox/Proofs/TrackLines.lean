import Groovebox.PatternText.Check
import Groovebox.PatternText.Compile
import Groovebox.Proofs.Lists
import Mathlib.Algebra.Order.Ring.Nat
import Mathlib.Data.List.Basic

/-!
# What is said of each line

Compiling and checking read a text from its first line to its last, and both keep something for each
track as they go.  Here both are put line by line:

* `get?_compile`: the set holds for a track what the last of its lines says;
* `check_eq_advice`: the diagnostics are those of each line in turn, where a line's own faults come
  first and then, if a later line is for the same track, that the next such line replaces it.

While it scans, `check` meets a replaced line a second time at the line that replaces it.  The sort
puts this diagnostic behind the line's own (`filter_scan`).
-/

namespace Groovebox

namespace PatternText

/-! ## Lines for a track -/

/-- The text after the colon, if the line is for a given track. -/
def Line.bodyFor? (track : Track) : Line → Option (List Char)
  | .forTrack other body => if other = track then some body else none
  | _ => none

/-- What the lines for a track say, line by line. -/
def bodies (track : Track) (lines : List Line) : List (List Char) :=
  lines.filterMap (Line.bodyFor? track)

/-- Whether a line is for a track. -/
def Line.isForTrack : Line → Bool
  | .forTrack _ _ => true
  | _ => false

@[simp] theorem bodyFor?_forTrack (track : Track) (body : List Char) :
    (Line.forTrack track body).bodyFor? track = some body := by
  simp [Line.bodyFor?]

theorem bodyFor?_eq_some {track : Track} {line : Line} {body : List Char} :
    line.bodyFor? track = some body ↔ line = .forTrack track body := by
  cases line with
  | forTrack other text =>
    by_cases h : other = track
    · simp [Line.bodyFor?, h]
    · simp [Line.bodyFor?, h]
  | _ => simp [Line.bodyFor?]

theorem bodies_cons (track : Track) (line : Line) (rest : List Line) :
    bodies track (line :: rest) = (line.bodyFor? track).toList ++ bodies track rest := by
  rw [bodies, List.filterMap_cons, bodies]
  cases line.bodyFor? track <;> rfl

/-- A line for a track is for one of them. -/
theorem countP_isForTrack (lines : List Line) :
    lines.countP Line.isForTrack =
      (Track.all.map fun track => (bodies track lines).length).sum := by
  induction lines with
  | nil => rfl
  | cons line rest ih =>
    simp only [Track.all, List.map_cons, List.map_nil, List.sum_cons, List.sum_nil] at ih ⊢
    rw [List.countP_cons, ih]
    cases line with
    | forTrack track body =>
      cases track <;> simp [bodies_cons, Line.bodyFor?, Line.isForTrack] <;> omega
    | _ => simp [bodies_cons, Line.bodyFor?, Line.isForTrack]

/-! ## Compiling line by line -/

/-- The last line for a track stands; without one the set is as before. -/
theorem get?_foldl_addLine (track : Track) (lines : List Line) (set : PatternSet) :
    (lines.foldl addLine set).get? track =
      ((bodies track lines).getLast?.map fun body => Pattern.ofWords (tokens body)).or
        (set.get? track) := by
  induction lines generalizing set with
  | nil => rfl
  | cons line rest ih =>
    rw [List.foldl_cons, ih, bodies_cons]
    cases line with
    | forTrack other body =>
      by_cases h : other = track
      · rw [h, addLine, PatternSet.get?_insert, if_pos rfl, bodyFor?_forTrack]
        rw [Option.toList_some, List.singleton_append, List.getLast?_cons]
        cases (bodies track rest).getLast? <;> rfl
      · rw [addLine, PatternSet.get?_insert, if_neg (Ne.symm h)]
        simp [Line.bodyFor?, h]
    | _ => rfl

/-- A compiled set holds for a track what the last of its lines says. -/
theorem get?_compile (text : String) (track : Track) :
    (compile text).get? track =
      (bodies track (readLines text)).getLast?.map fun body => Pattern.ofWords (tokens body) := by
  have hempty : PatternSet.empty.get? track = none := by
    cases track <;> rfl
  rw [compile, get?_foldl_addLine, hempty, Option.or_none]

/-- The last line for a track is one that has none for it after it. -/
theorem getLast?_bodies_eq_some_iff {track : Track} {lines : List Line} {body : List Char} :
    (bodies track lines).getLast? = some body ↔
      ∃ before later, lines = before ++ .forTrack track body :: later ∧
        bodies track later = [] := by
  constructor
  · intro h
    obtain ⟨earlier, hbodies⟩ := List.getLast?_eq_some_iff.mp h
    obtain ⟨front, back, rfl, _, hback⟩ := List.filterMap_eq_append_iff.mp hbodies
    obtain ⟨between, line, later, rfl, _, hline, hlater⟩ := List.filterMap_eq_cons_iff.mp hback
    rw [bodyFor?_eq_some] at hline
    subst hline
    exact ⟨front ++ between, later, (List.append_assoc _ _ _).symm, hlater⟩
  · rintro ⟨before, later, rfl, hlater⟩
    rw [bodies, List.filterMap_append, ← bodies, ← bodies, bodies_cons, hlater, bodyFor?_forTrack]
    simp

/-- A line for a track with none for it after it is the one that a compiled set holds. -/
theorem get?_compile_of_last {text : String} {before later : List Line} {track : Track}
    {body : List Char} (h : readLines text = before ++ .forTrack track body :: later)
    (hlater : bodies track later = []) :
    (compile text).get? track = some (Pattern.ofWords (tokens body)) := by
  rw [get?_compile, getLast?_bodies_eq_some_iff.mpr ⟨before, later, h, hlater⟩, Option.map_some]

/-- No line for a track comes after the last one for it. -/
theorem le_of_bodies_drop_eq_nil {lines : List Line} {track : Track} {i j : Nat}
    {body : List Char} (h : bodies track (lines.drop (i + 1)) = [])
    (hj : lines[j]? = some (.forTrack track body)) : j ≤ i := by
  by_contra hlt
  have hmem : Line.forTrack track body ∈ lines.drop (i + 1) := by
    refine List.mem_of_getElem? (i := j - (i + 1)) ?_
    rw [List.getElem?_drop, ← hj]
    congr 1
    omega
  have hbody : body ∈ bodies track (lines.drop (i + 1)) :=
    List.mem_filterMap.mpr ⟨_, hmem, bodyFor?_forTrack track body⟩
  rw [h] at hbody
  exact List.not_mem_nil hbody

/-- The size of a set is the number of tracks for which it holds something. -/
theorem size_eq_sum (set : PatternSet) :
    set.size = (Track.all.map fun track => (set.get? track).toList.length).sum := by
  rcases set with ⟨_ | _, _ | _, _ | _⟩ <;> rfl

/-! ## Checking line by line -/

/-- What a line has at fault by itself. -/
def Line.faults : Line → List Fault
  | .skip => []
  | .malformed => [.malformed]
  | .unknownTrack name => [.unknownTrack (String.ofList name)]
  | .forTrack track body =>
    ((tokens body).filter fun token => !isValidToken token track).map (.invalidToken track)

/-- The number of the next line for a track; the lines are numbered from a given number on. -/
def nextFor? (track : Track) : Nat → List Line → Option Nat
  | _, [] => none
  | number, line :: rest =>
    if (line.bodyFor? track).isSome then some number else nextFor? track (number + 1) rest

/-- That the next later line for the same track replaces a line, if there is one. -/
def Line.replaced? (number : Nat) (later : List Line) : Line → Option Fault
  | .forTrack track _ => (nextFor? track (number + 1) later).map (.overridden track)
  | _ => none

/-- What is at fault with a line, given the lines after it. -/
def Line.allFaults (number : Nat) (later : List Line) (line : Line) : List Fault :=
  line.faults ++ (line.replaced? number later).toList

/-- The diagnostics of each line in turn; the lines are numbered from a given number on. -/
def advice : Nat → List Line → List Diagnostic
  | _, [] => []
  | number, line :: later =>
    (line.allFaults number later).map (⟨number, ·⟩) ++ advice (number + 1) later

theorem nextFor?_eq_none_iff {track : Track} {number : Nat} {lines : List Line} :
    nextFor? track number lines = none ↔ bodies track lines = [] := by
  induction lines generalizing number with
  | nil => simp [nextFor?, bodies]
  | cons line rest ih =>
    rw [nextFor?, bodies_cons]
    cases h : line.bodyFor? track with
    | some body => simp
    | none => simpa using ih

/-- The diagnostics of lines that come later have later numbers. -/
theorem le_line_of_mem_advice {number : Nat} {lines : List Line} {diagnostic : Diagnostic}
    (h : diagnostic ∈ advice number lines) : number ≤ diagnostic.line := by
  induction lines generalizing number with
  | nil => exact absurd h List.not_mem_nil
  | cons line later ih =>
    rw [advice, List.mem_append] at h
    rcases h with h | h
    · obtain ⟨_, _, rfl⟩ := List.mem_map.mp h
      exact Nat.le_refl number
    · have hlater := ih h
      omega

theorem filter_advice_of_lt {number k : Nat} (h : k < number) (lines : List Line) :
    (advice number lines).filter (·.line = k) = [] := by
  refine List.filter_eq_nil_iff.mpr ?_
  intro diagnostic hmem
  have hle := le_line_of_mem_advice hmem
  simp only [decide_eq_true_eq]
  omega

theorem pairwise_advice (number : Nat) (lines : List Line) :
    (advice number lines).Pairwise (·.line ≤ ·.line) := by
  induction lines generalizing number with
  | nil => exact List.Pairwise.nil
  | cons line later ih =>
    rw [advice, List.pairwise_append, List.pairwise_map]
    refine ⟨List.pairwise_of_forall fun _ _ => Nat.le_refl number, ih (number + 1), ?_⟩
    intro a ha b hb
    obtain ⟨_, _, rfl⟩ := List.mem_map.mp ha
    have hlater := le_line_of_mem_advice hb
    show number ≤ b.line
    omega

/-- A diagnostic belongs to the line with its number. -/
theorem mem_advice_iff {start number : Nat} {lines : List Line} {fault : Fault} :
    ⟨number, fault⟩ ∈ advice start lines ↔
      ∃ before line later, lines = before ++ line :: later ∧ number = start + before.length ∧
        fault ∈ line.allFaults number later := by
  induction lines generalizing start with
  | nil => simp [advice]
  | cons line later ih =>
    rw [advice, List.mem_append, List.mem_map, ih]
    constructor
    · rintro (⟨_, hfault, heq⟩ | ⟨before, line', later', rfl, rfl, hfault⟩)
      · cases heq
        exact ⟨[], line, later, rfl, rfl, hfault⟩
      · refine ⟨line :: before, line', later', rfl, ?_, hfault⟩
        simp only [List.length_cons]
        omega
    · rintro ⟨before, line', later', heq, rfl, hfault⟩
      cases before with
      | nil =>
        cases heq
        exact Or.inl ⟨fault, hfault, rfl⟩
      | cons _ before =>
        cases heq
        refine Or.inr ⟨before, line', later', rfl, ?_, hfault⟩
        simp only [List.length_cons]
        omega

/-! ## Scanning meets what the lines say -/

/-- The last lines met come before a number. -/
def LastLines.Before (last : LastLines) (number : Nat) : Prop :=
  ∀ track line, last track = some line → line < number

/-- A line that is met is the last one for its track. -/
theorem lastAfter_apply (last : LastLines) (number : Nat) (line : Line) (track : Track) :
    lastAfter last number line track =
      if (line.bodyFor? track).isSome then some number else last track := by
  cases line with
  | forTrack other body =>
    by_cases h : track = other
    · simp [lastAfter, LastLines.note, h]
    · simp [lastAfter, LastLines.note, Line.bodyFor?, h, Ne.symm h]
  | _ => rfl

theorem before_lastAfter {last : LastLines} {number : Nat} (h : last.Before number) (line : Line) :
    (lastAfter last number line).Before (number + 1) := by
  intro track met hmet
  rw [lastAfter_apply] at hmet
  split at hmet
  · cases hmet
    exact Nat.lt_succ_self number
  · exact Nat.lt_succ_of_lt (h track met hmet)

/-- What arises when a line is met, of the line before it for the same track. -/
def metAgain (last : LastLines) (number : Nat) : Line → List Diagnostic
  | .forTrack track _ =>
    (last track).toList.map fun previous => ⟨previous, .overridden track number⟩
  | _ => []

theorem faultsAt_eq (last : LastLines) (number : Nat) (line : Line) :
    faultsAt last number line = metAgain last number line ++ line.faults.map (⟨number, ·⟩) := by
  cases line with
  | forTrack track body =>
    rw [faultsAt, metAgain, Line.faults, List.map_map]
    rfl
  | _ => rfl

/-- A line replaces none but the last one for its track. -/
theorem filter_metAgain {last : LastLines} {k : Nat} {line : Line}
    (h : ∀ track, (line.bodyFor? track).isSome → last track ≠ some k) (number : Nat) :
    (metAgain last number line).filter (·.line = k) = [] := by
  refine List.filter_eq_nil_iff.mpr ?_
  intro diagnostic hmem
  cases line with
  | forTrack track body =>
    obtain ⟨previous, hprevious, rfl⟩ := List.mem_map.mp hmem
    rw [Option.mem_toList] at hprevious
    have hne : previous ≠ k := fun heq => h track (by simp) (heq ▸ hprevious)
    simpa using hne
  | _ => exact absurd hmem List.not_mem_nil

/-- All that is put down for one line has its number. -/
theorem filter_map_line (number k : Nat) (faults : List Fault) :
    (faults.map (Diagnostic.mk number)).filter (·.line = k) =
      if number = k then faults.map (Diagnostic.mk number) else [] := by
  split
  · next h => simp [List.filter_map, h, Function.comp_def]
  · next h => simp [List.filter_map, h, Function.comp_def]

/-- Nothing arises any more of a line that is not the last one for its track. -/
theorem filter_scan_of_gone {last : LastLines} {number k : Nat} (hk : k < number)
    (hgone : ∀ track, last track ≠ some k) (lines : List Line) :
    (scan last number lines).filter (·.line = k) = [] := by
  induction lines generalizing last number with
  | nil => rfl
  | cons line rest ih =>
    have hne : number ≠ k := by omega
    have hafter : ∀ track, lastAfter last number line track ≠ some k := by
      intro track
      rw [lastAfter_apply]
      split
      · simpa using hne
      · exact hgone track
    rw [scan, List.filter_append, faultsAt_eq, List.filter_append, filter_map_line, if_neg hne,
      filter_metAgain (fun track _ => hgone track), ih (by omega) hafter]
    rfl

/-- Of the last line for a track, what still arises is that the next line for the track replaces
it. -/
theorem filter_scan_of_last {last : LastLines} {number k : Nat} (hk : k < number) {track : Track}
    (hlast : ∀ other, last other = some k ↔ other = track) (lines : List Line) :
    (scan last number lines).filter (·.line = k) =
      (nextFor? track number lines).toList.map fun byLine => ⟨k, .overridden track byLine⟩ := by
  induction lines generalizing last number with
  | nil => rfl
  | cons line rest ih =>
    have hne : number ≠ k := by omega
    rw [scan, List.filter_append, faultsAt_eq, List.filter_append, filter_map_line, if_neg hne,
      List.append_nil, nextFor?]
    cases hbody : line.bodyFor? track with
    | some body =>
      -- here the line is replaced, and it is not the last one for its track any more
      have hgone : ∀ other, lastAfter last number line other ≠ some k := by
        intro other hother
        rw [lastAfter_apply] at hother
        split at hother
        · exact hne (Option.some.inj hother)
        · next hnone =>
          rw [(hlast other).mp hother, hbody] at hnone
          exact hnone rfl
      rw [filter_scan_of_gone (by omega) hgone, bodyFor?_eq_some.mp hbody, metAgain,
        (hlast track).mpr rfl]
      simp
    | none =>
      have hstill : ∀ other, lastAfter last number line other = some k ↔ other = track := by
        intro other
        rw [lastAfter_apply, ← hlast]
        split
        · next hsome =>
          have hother : other ≠ track := by
            rintro rfl
            simp [hbody] at hsome
          simp [hne, hlast, hother]
        · rfl
      have hquiet : ∀ other, (line.bodyFor? other).isSome → last other ≠ some k := by
        intro other hsome hother
        rw [(hlast other).mp hother, hbody] at hsome
        cases hsome
      rw [filter_metAgain hquiet, ih (by omega) hstill]
      rfl

/-- Of the line just met, what still arises is that a later one replaces it. -/
theorem filter_scan_lastAfter {last : LastLines} {number : Nat} (hlast : last.Before number)
    (line : Line) (later : List Line) :
    (scan (lastAfter last number line) (number + 1) later).filter (·.line = number) =
      (line.replaced? number later).toList.map (⟨number, ·⟩) := by
  have hlt : number < number + 1 := Nat.lt_succ_self number
  have hnone : ∀ track, last track ≠ some number := by
    intro track hmet
    exact Nat.lt_irrefl number (hlast track number hmet)
  cases line with
  | forTrack track body =>
    have hself : ∀ other,
        lastAfter last number (.forTrack track body) other = some number ↔ other = track := by
      intro other
      rw [lastAfter_apply]
      by_cases h : other = track
      · simp [h]
      · simp [Line.bodyFor?, h, Ne.symm h, hnone]
    rw [filter_scan_of_last hlt hself, Line.replaced?]
    cases nextFor? track (number + 1) later <;> rfl
  | _ => exact filter_scan_of_gone hlt hnone later

/-- Among the lines to come, the diagnostics of each arise in the order in which the line has
them. -/
theorem filter_scan {last : LastLines} {number k : Nat} (hlast : last.Before number)
    (hk : number ≤ k) (lines : List Line) :
    (scan last number lines).filter (·.line = k) = (advice number lines).filter (·.line = k) := by
  induction lines generalizing last number with
  | nil => rfl
  | cons line later ih =>
    -- the line replaces one that has been met, not one to come
    have hmet : ∀ track, (line.bodyFor? track).isSome → last track ≠ some k := by
      intro track _ heq
      have hlt := hlast track k heq
      omega
    rw [scan, advice, List.filter_append, List.filter_append, faultsAt_eq, List.filter_append,
      filter_metAgain hmet, List.nil_append, filter_map_line, filter_map_line]
    by_cases hnow : number = k
    · rw [if_pos hnow, if_pos hnow, filter_advice_of_lt (by omega), List.append_nil, Line.allFaults,
        List.map_append, ← hnow, filter_scan_lastAfter hlast]
    · rw [if_neg hnow, if_neg hnow, ih (before_lastAfter hlast line) (by omega)]

/-- The diagnostics of a text are those of each of its lines in turn. -/
theorem check_eq_advice (text : String) : check text = advice 1 (readLines text) := by
  have hnone : LastLines.Before (fun _ => none) 1 := fun _ _ h => by cases h
  have hcheck : check text = sortedBy (·.line) (scan (fun _ => none) 1 (readLines text)) := rfl
  rw [hcheck]
  refine eq_of_filter_eq (pairwise_sortedBy _ _) (pairwise_advice 1 _) ?_
  intro k
  rw [filter_sortedBy]
  by_cases hk : 1 ≤ k
  · exact filter_scan hnone hk _
  · -- there is no line with the number 0
    have hlt : k < 1 := by omega
    rw [filter_advice_of_lt hlt, filter_scan_of_gone hlt fun _ h => by cases h]

end PatternText

end Groovebox
