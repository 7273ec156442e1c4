import Groovebox.Track

/-! # Patterns

A pattern is the list of step tokens written for one track.  A pattern set holds at most one
pattern for each track, and its cycle is as long as its longest pattern.
-/

namespace Groovebox

/-! ## Step tokens -/

/-- One step of a pattern: a rest, or the text of something to play. -/
inductive StepToken where
  | rest
  | play (text : String)
deriving DecidableEq, Inhabited, Repr

namespace StepToken

/-- The word that stands for a rest. -/
def restText : String := "-"

/-- The token that a word stands for. -/
def ofString (word : String) : StepToken :=
  if word = restText then rest else play word

/-- The text of a token. -/
def text : StepToken → String
  | rest => restText
  | play word => word

/-- Whether a token is the rest. -/
def isRest : StepToken → Bool
  | rest => true
  | play _ => false

/-- The text to play, if the token is not the rest. -/
def sound? : StepToken → Option String
  | rest => none
  | play word => some word

/-- Reading a word keeps its text. -/
@[simp] theorem text_ofString (word : String) : (ofString word).text = word := by
  unfold ofString
  split <;> simp_all [text]

end StepToken

/-! ## Patterns -/

/-- What a pattern shorter than the cycle does past its own end. -/
inductive WrapPolicy where
  /-- The steps past the end are silent. -/
  | silent
  /-- The pattern begins again. -/
  | loop
deriving DecidableEq, Inhabited, Repr

/-- The step tokens of one track, in order. -/
structure Pattern where
  steps : List StepToken
deriving DecidableEq, Inhabited, Repr

namespace Pattern

/-- The pattern that a list of words stands for. -/
def ofWords (words : List String) : Pattern :=
  ⟨words.map StepToken.ofString⟩

/-- The number of steps. -/
def length (pattern : Pattern) : Nat :=
  pattern.steps.length

/-- A pattern without steps. -/
def isEmpty (pattern : Pattern) : Bool :=
  pattern.steps.isEmpty

/-- The token at a step of the cycle; none past the end of a silent pattern, and none at all in an
empty one. -/
def tokenAt (pattern : Pattern) (step : Nat) : WrapPolicy → Option StepToken
  | .silent => pattern.steps[step]?
  | .loop => pattern.steps[step % pattern.length]?

theorem mem_of_tokenAt {pattern : Pattern} {step : Nat} {policy : WrapPolicy}
    {token : StepToken} (h : pattern.tokenAt step policy = some token) : token ∈ pattern.steps := by
  cases policy with
  | silent => exact List.mem_of_getElem? h
  | loop => exact List.mem_of_getElem? h

end Pattern

/-! ## Pattern sets -/

/-- At most one pattern for each track. -/
structure PatternSet where
  drums : Option Pattern
  bass : Option Pattern
  synth : Option Pattern
deriving DecidableEq, Inhabited, Repr

namespace PatternSet

/-- The set without patterns. -/
def empty : PatternSet := ⟨none, none, none⟩

/-- The pattern of a track, if the set has one. -/
def get? (set : PatternSet) : Track → Option Pattern
  | .drums => set.drums
  | .bass => set.bass
  | .synth => set.synth

/-- The set with the pattern of one track replaced. -/
def insert (set : PatternSet) (track : Track) (pattern : Pattern) : PatternSet :=
  match track with
  | .drums => { set with drums := some pattern }
  | .bass => { set with bass := some pattern }
  | .synth => { set with synth := some pattern }

/-- Whether the set has a pattern for a track, be it an empty one. -/
def contains (set : PatternSet) (track : Track) : Bool :=
  (set.get? track).isSome

/-- The tracks that have a pattern, with it, in channel order. -/
def toList (set : PatternSet) : List (Track × Pattern) :=
  Track.all.filterMap fun track => (set.get? track).map (track, ·)

/-- The number of tracks that have a pattern. -/
def size (set : PatternSet) : Nat :=
  set.toList.length

/-- A set without patterns. -/
def isEmpty (set : PatternSet) : Bool :=
  set.toList.isEmpty

/-- The length of the longest pattern; 0 when there is nothing to play. -/
def cycleLength (set : PatternSet) : Nat :=
  set.toList.foldl (fun longest entry => max longest entry.2.length) 0

/-- An inserted pattern is found under its own track, and the other tracks are as before. -/
theorem get?_insert (set : PatternSet) (track other : Track) (pattern : Pattern) :
    (set.insert track pattern).get? other =
      if other = track then some pattern else set.get? other := by
  cases track <;> cases other <;> rfl

theorem mem_toList_of_get? {set : PatternSet} {track : Track} {pattern : Pattern}
    (h : set.get? track = some pattern) : (track, pattern) ∈ set.toList := by
  refine List.mem_filterMap.mpr ⟨track, Track.mem_all track, ?_⟩
  rw [h]
  rfl

/-- A set has at most one pattern for a track. -/
theorem filter_toList (set : PatternSet) (track : Track) :
    set.toList.filter (·.1 = track) = ((set.get? track).map (track, ·)).toList := by
  rcases set with ⟨_ | _, _ | _, _ | _⟩ <;> cases track <;> rfl

theorem get?_of_mem_toList {set : PatternSet} {track : Track} {pattern : Pattern}
    (h : (track, pattern) ∈ set.toList) : set.get? track = some pattern := by
  obtain ⟨_, _, hpattern⟩ := List.mem_filterMap.mp h
  obtain ⟨_, hget, heq⟩ := Option.map_eq_some_iff.mp hpattern
  cases heq
  exact hget

/-- A set is known by what it holds for each track. -/
theorem ext_get? {a b : PatternSet} (h : ∀ track, a.get? track = b.get? track) : a = b := by
  cases a
  cases b
  have hd := h .drums
  have hb := h .bass
  have hs := h .synth
  simp only [get?] at hd hb hs
  simp [hd, hb, hs]

end PatternSet

end Groovebox
