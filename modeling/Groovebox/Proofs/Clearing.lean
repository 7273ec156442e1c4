import Groovebox.Proofs.TextLines
import Groovebox.Proofs.TrackLines

/-!
# Deleting the idle lines of a text

`check` and `compile` read the same lines, but `compile` lets the later of two lines win, and
`check` tells of the earlier one when it meets the later.  A line is *idle* if `check` says that it
is malformed, that its track is unknown, or that it is replaced.  Here the idle lines are deleted:

* `idle_eq`: a line is idle if and only if it has no part in the set (`Line.stands`);
* `bodies_keepNumbered`: of the lines for a track, the last one is left, if there is any;
* `advice_keepNumbered`: what is said of the lines that are left is what was said of their tokens,
  under their new numbers.
-/

namespace Groovebox

namespace PatternText

/-! ## Idle lines -/

/-- Whether a fault is one token's.  Any other fault is the whole line's. -/
def Fault.isOfToken : Fault → Bool
  | .invalidToken _ _ => true
  | _ => false

/-- Whether `check` reports that a whole line is for nothing. -/
def idle (text : String) (number : Nat) : Bool :=
  (check text).any fun diagnostic => diagnostic.line = number && !diagnostic.fault.isOfToken

/-- The text without its idle lines. -/
def cleared (text : String) : String :=
  String.ofList (Text.keepLines (fun number => !idle text number) text.toList)

theorem lines_cleared (text : String) :
    Text.lines (cleared text).toList =
      keepNumbered (fun number => !idle text number) 1 (Text.lines text.toList) := by
  rw [cleared, String.toList_ofList, Text.lines_keepLines]

/-- The lines that are kept are read as before. -/
theorem readLines_keepLines (keep : Nat → Bool) (text : String) :
    readLines (String.ofList (Text.keepLines keep text.toList)) =
      keepNumbered keep 1 (readLines text) := by
  rw [readLines, String.toList_ofList, Text.lines_keepLines, map_keepNumbered, readLines]

theorem readLines_cleared (text : String) :
    readLines (cleared text) =
      keepNumbered (fun number => !idle text number) 1 (readLines text) :=
  readLines_keepLines _ text

/-- Whether a line is not for nothing, given the lines after it. -/
def Line.stands (later : List Line) : Line → Bool
  | .skip => true
  | .malformed => false
  | .unknownTrack _ => false
  | .forTrack track _ => (bodies track later).isEmpty

theorem replaced?_eq_none_iff {number : Nat} {track : Track} {body : List Char}
    {later : List Line} :
    (Line.forTrack track body).replaced? number later = none ↔ bodies track later = [] := by
  rw [Line.replaced?, Option.map_eq_none_iff, nextFor?_eq_none_iff]

theorem exists_nextFor? {track : Track} {lines : List Line} (h : bodies track lines ≠ [])
    (number : Nat) : ∃ next, nextFor? track number lines = some next :=
  Option.ne_none_iff_exists'.mp (mt nextFor?_eq_none_iff.mp h)

/-- The faults of a whole line are those for which it does not stand. -/
theorem any_allFaults (number : Nat) (later : List Line) (line : Line) :
    (line.allFaults number later).any (!·.isOfToken) = !line.stands later := by
  cases line with
  | forTrack track body =>
    rw [Line.allFaults, List.any_append, Line.faults, List.any_map]
    have htokens : (((tokens body).filter fun token => !isValidToken token track).any
        ((!·.isOfToken) ∘ Fault.invalidToken track)) = false := by
      simp [Fault.isOfToken]
    rw [htokens, Bool.false_or, Line.stands]
    by_cases hlater : bodies track later = []
    · rw [replaced?_eq_none_iff.mpr hlater, hlater]
      rfl
    · obtain ⟨next, hnext⟩ := exists_nextFor? hlater (number + 1)
      simp [Line.replaced?, hnext, hlater, Fault.isOfToken]
  | _ => rfl

/-- A line is idle if and only if it does not stand. -/
theorem idle_eq {text : String} {before later : List Line} {line : Line}
    (h : readLines text = before ++ line :: later) :
    idle text (1 + before.length) = !line.stands later := by
  rw [← any_allFaults (1 + before.length), Bool.eq_iff_iff, idle, List.any_eq_true,
    List.any_eq_true, check_eq_advice]
  constructor
  · rintro ⟨⟨number, fault⟩, hmem, hfault⟩
    obtain ⟨before', line', later', heq, rfl, hof⟩ := mem_advice_iff.mp hmem
    simp only [Bool.and_eq_true, decide_eq_true_eq] at hfault
    -- the line with this number is this one
    have hlength : before.length = before'.length := by omega
    rw [h] at heq
    obtain ⟨_, htail⟩ := List.append_inj heq hlength
    cases htail
    exact ⟨fault, hfault.1 ▸ hof, hfault.2⟩
  · rintro ⟨fault, hof, hfault⟩
    refine ⟨⟨1 + before.length, fault⟩, mem_advice_iff.mpr ⟨before, line, later, h, rfl, hof⟩, ?_⟩
    simpa using hfault

/-! ## Keeping the lines that stand -/

/-- A choice of lines by their numbers that takes those that stand. -/
def Standing (keep : Nat → Bool) (start : Nat) (lines : List Line) : Prop :=
  ∀ before line later, lines = before ++ line :: later →
    keep (start + before.length) = line.stands later

theorem Standing.head {keep : Nat → Bool} {start : Nat} {line : Line} {later : List Line}
    (h : Standing keep start (line :: later)) : keep start = line.stands later :=
  h [] line later rfl

theorem Standing.tail {keep : Nat → Bool} {start : Nat} {line : Line} {later : List Line}
    (h : Standing keep start (line :: later)) : Standing keep (start + 1) later := by
  intro before line' later' heq
  rw [← h (line :: before) line' later' (by rw [heq, List.cons_append]), List.length_cons]
  congr 1
  omega

theorem standing_not_idle (text : String) :
    Standing (fun number => !idle text number) 1 (readLines text) := by
  intro before line later heq
  simp only [idle_eq heq, Bool.not_not]

/-- Of the lines for a track, the last one is left. -/
theorem bodies_keepNumbered {keep : Nat → Bool} {start : Nat} {lines : List Line}
    (h : Standing keep start lines) (track : Track) :
    bodies track (keepNumbered keep start lines) = (bodies track lines).getLast?.toList := by
  induction lines generalizing start with
  | nil => rfl
  | cons line later ih =>
    have hlater := ih h.tail
    rw [keepNumbered, h.head, bodies_cons]
    cases line with
    | forTrack other body =>
      rw [Line.stands]
      by_cases hother : other = track
      · subst hother
        rw [bodyFor?_forTrack]
        by_cases hlast : bodies other later = []
        · rw [hlast] at hlater ⊢
          rw [List.isEmpty_nil, if_pos rfl, bodies_cons, hlater, bodyFor?_forTrack]
          rfl
        · rw [if_neg (by simpa using hlast), hlater, Option.toList_some, List.singleton_append,
            List.getLast?_cons_of_ne_nil hlast]
      · have hnone : (Line.forTrack other body).bodyFor? track = none := by
          simp [Line.bodyFor?, hother]
        rw [hnone]
        split
        · rw [bodies_cons, hnone, hlater]
          rfl
        · exact hlater
    | skip =>
      rw [Line.stands, if_pos rfl, bodies_cons, hlater]
      rfl
    | _ => exact hlater

/-- A line that stands still does so when idle lines after it are gone. -/
theorem stands_keepNumbered {keep : Nat → Bool} {start : Nat} {later : List Line}
    (h : Standing keep start later) {line : Line} (hline : line.stands later) :
    line.stands (keepNumbered keep start later) := by
  cases line with
  | forTrack track body =>
    rw [Line.stands, List.isEmpty_iff] at hline ⊢
    rw [bodies_keepNumbered h, hline]
    rfl
  | _ => exact hline

/-! ## What is said of the lines that are left -/

/-- The number that a line has when only some lines are kept. -/
def newNumber (keep : Nat → Bool) (number : Nat) : Nat :=
  (List.range' 1 number).countP keep

/-- A diagnostic under the new number of its line. -/
def Diagnostic.renumbered (keep : Nat → Bool) (diagnostic : Diagnostic) : Diagnostic :=
  { diagnostic with line := newNumber keep diagnostic.line }

theorem newNumber_succ (keep : Nat → Bool) (number : Nat) :
    newNumber keep (number + 1) = newNumber keep number + if keep (number + 1) then 1 else 0 := by
  rw [newNumber, List.range'_1_concat, List.countP_append, List.countP_singleton, newNumber,
    Nat.add_comm 1 number]

/-- Nothing is said of a whole line that stands. -/
theorem allFaults_of_stands {line : Line} {later : List Line} (h : line.stands later)
    (number : Nat) : line.allFaults number later = line.faults := by
  cases line with
  | forTrack track body =>
    rw [Line.stands, List.isEmpty_iff] at h
    rw [Line.allFaults, replaced?_eq_none_iff.mpr h]
    exact List.append_nil _
  | _ => exact List.append_nil _

theorem isOfToken_of_stands {line : Line} {later : List Line} (h : line.stands later)
    {fault : Fault} (hfault : fault ∈ line.faults) : fault.isOfToken := by
  cases line with
  | skip => exact absurd hfault List.not_mem_nil
  | forTrack track body =>
    obtain ⟨_, _, rfl⟩ := List.mem_map.mp hfault
    rfl
  | _ => cases h

/-- The diagnostics of the lines that are left are those of their tokens. -/
theorem advice_keepNumbered {keep : Nat → Bool} {number : Nat} {lines : List Line}
    (h : Standing keep (number + 1) lines) :
    advice (newNumber keep number + 1) (keepNumbered keep (number + 1) lines) =
      ((advice (number + 1) lines).filter fun diagnostic =>
        keep diagnostic.line && diagnostic.fault.isOfToken).map (Diagnostic.renumbered keep) := by
  induction lines generalizing number with
  | nil => rfl
  | cons line later ih =>
    have hlater := ih h.tail
    rw [newNumber_succ] at hlater
    rw [keepNumbered, advice, List.filter_append, List.map_append]
    by_cases hkeep : keep (number + 1)
    · rw [if_pos hkeep] at hlater ⊢
      have hstands : line.stands later := h.head ▸ hkeep
      rw [advice, hlater, allFaults_of_stands (stands_keepNumbered h.tail hstands),
        allFaults_of_stands hstands]
      congr 1
      have hall : ∀ diagnostic ∈ line.faults.map (Diagnostic.mk (number + 1)),
          (keep diagnostic.line && diagnostic.fault.isOfToken) = true := by
        intro diagnostic hmem
        obtain ⟨fault, hfault, rfl⟩ := List.mem_map.mp hmem
        rw [Bool.and_eq_true]
        exact ⟨hkeep, isOfToken_of_stands hstands hfault⟩
      rw [List.filter_eq_self.mpr hall, List.map_map]
      refine List.map_congr_left fun fault _ => ?_
      simp [Diagnostic.renumbered, newNumber_succ, hkeep]
    · rw [if_neg hkeep, Nat.add_zero] at hlater
      rw [if_neg hkeep, hlater]
      have hnone : ((line.allFaults (number + 1) later).map (Diagnostic.mk (number + 1))).filter
          (fun diagnostic => keep diagnostic.line && diagnostic.fault.isOfToken) = [] := by
        rw [List.filter_map, List.map_eq_nil_iff, List.filter_eq_nil_iff]
        simp [hkeep]
      rw [hnone]
      rfl

/-! ## The cleared text -/

theorem bodies_cleared (text : String) (track : Track) :
    bodies track (readLines (cleared text)) =
      (bodies track (readLines text)).getLast?.toList := by
  rw [readLines_cleared, bodies_keepNumbered (standing_not_idle text)]

theorem compile_eq_of_cleared (text : String) : compile (cleared text) = compile text := by
  refine PatternSet.ext_get? fun track => ?_
  rw [get?_compile, get?_compile, bodies_cleared]
  cases (bodies track (readLines text)).getLast? <;> rfl

theorem countP_isForTrack_cleared (text : String) :
    (readLines (cleared text)).countP Line.isForTrack = (compile text).size := by
  rw [countP_isForTrack, size_eq_sum]
  refine congrArg List.sum (List.map_congr_left fun track _ => ?_)
  rw [bodies_cleared, get?_compile]
  cases (bodies track (readLines text)).getLast? <;> rfl

theorem check_eq_of_cleared (text : String) :
    check (cleared text) =
      ((check text).filter fun diagnostic =>
        !idle text diagnostic.line && diagnostic.fault.isOfToken).map
          (Diagnostic.renumbered fun number => !idle text number) := by
  rw [check_eq_advice, check_eq_advice, readLines_cleared]
  have hstanding : Standing (fun number => !idle text number) (0 + 1) (readLines text) :=
    standing_not_idle text
  simpa only [newNumber, List.range'_zero, List.countP_nil, Nat.zero_add] using
    advice_keepNumbered hstanding

/-- A line for a track that is not replaced is the last one for it. -/
theorem bodies_later_of_not_overridden {text : String} {before later : List Line} {track : Track}
    {body : List Char} (h : readLines text = before ++ .forTrack track body :: later)
    (hnot : ∀ byLine, ⟨1 + before.length, .overridden track byLine⟩ ∉ check text) :
    bodies track later = [] := by
  by_contra hlater
  obtain ⟨next, hnext⟩ := exists_nextFor? hlater (1 + before.length + 1)
  refine hnot next ?_
  rw [check_eq_advice]
  refine mem_advice_iff.mpr ⟨before, .forTrack track body, later, h, rfl, ?_⟩
  simp [Line.allFaults, Line.replaced?, hnext]

/-- To delete the lines on which `check` reports more than a token changes nothing of the set, and
leaves one line for each of its tracks and what `check` said of the tokens on the lines that stay.
A line for a track that is not reported as replaced is the one that the set has. -/
theorem compile_check_cleared (text : String) :
    Text.lines (cleared text).toList =
        keepNumbered (fun number => !idle text number) 1 (Text.lines text.toList) ∧
      compile (cleared text) = compile text ∧
      (∀ track, (bodies track (readLines (cleared text))).length ≤ 1) ∧
      (readLines (cleared text)).countP Line.isForTrack = (compile text).size ∧
      check (cleared text) =
        ((check text).filter fun diagnostic =>
          !idle text diagnostic.line && diagnostic.fault.isOfToken).map
            (Diagnostic.renumbered fun number => !idle text number) ∧
      ∀ i track body, (readLines text)[i]? = some (.forTrack track body) →
        (∀ byLine, ⟨i + 1, .overridden track byLine⟩ ∉ check text) →
          (compile text).get? track = some (Pattern.ofWords (tokens body)) ∧
          ∀ j other, (readLines text)[j]? = some (.forTrack track other) → j ≤ i := by
  refine ⟨lines_cleared text, compile_eq_of_cleared text, ?_, countP_isForTrack_cleared text,
    check_eq_of_cleared text, ?_⟩
  · intro track
    rw [bodies_cleared]
    cases (bodies track (readLines text)).getLast? <;> simp
  · intro i track body hline hnot
    obtain ⟨hi, hget⟩ := List.getElem?_eq_some_iff.mp hline
    have hsplit : readLines text =
        (readLines text).take i ++ .forTrack track body :: (readLines text).drop (i + 1) := by
      rw [← hget, ← List.drop_eq_getElem_cons hi, List.take_append_drop]
    have hlength : ((readLines text).take i).length = i := by
      rw [List.length_take]
      omega
    have hlater : bodies track ((readLines text).drop (i + 1)) = [] := by
      refine bodies_later_of_not_overridden hsplit ?_
      rw [hlength, Nat.add_comm]
      exact hnot
    exact ⟨get?_compile_of_last hsplit hlater, fun _ _ hj => le_of_bodies_drop_eq_nil hlater hj⟩

end PatternText

end Groovebox
