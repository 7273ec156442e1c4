import Groovebox.Dispatch
import Mathlib.Data.List.Basic
import Mathlib.Data.List.Induction

/-!
# A pass of the cycle

The steps of the cycle are dispatched one by one, and at each step every track's token is looked up
in its own pattern.  A whole pass of the cycle makes, for each track, the calls of a walk through
the pattern as it is written (`filter_pass`): once under `silent`, and over and over until the cycle
ends under `loop`.  So the two policies differ by the tokens that are played a second time within
the cycle, and by nothing else (`pass_silent_eq_pass_loop_iff`).
-/

namespace Groovebox

/-! ## Lists by their places -/

section Places

variable {α β : Type}

/-- The first entries of a list with their places. -/
theorem zipIdx_take (xs : List α) (count : Nat) :
    (xs.take count).zipIdx =
      (List.range count).filterMap fun place => xs[place]?.map fun x => (x, place) := by
  induction count with
  | zero => rfl
  | succ count ih =>
    rw [List.take_add_one, List.zipIdx_append, ih, List.range_succ, List.filterMap_append]
    congr 1
    cases hentry : xs[count]? with
    | none => simp [hentry]
    | some x =>
      have hlt : count < xs.length := (List.getElem?_eq_some_iff.mp hentry).1
      simp [hentry, Nat.min_eq_left (Nat.le_of_lt hlt)]

/-- In a list that is repeated, an entry is found by its place in the list. -/
theorem getElem?_flatten_replicate (xs : List α) (count : Nat) {place : Nat}
    (hplace : place < count * xs.length) :
    (List.replicate count xs).flatten[place]? = xs[place % xs.length]? := by
  induction count generalizing place with
  | zero => simp at hplace
  | succ count ih =>
    rw [List.replicate_succ, List.flatten_cons]
    rcases Nat.lt_or_ge place xs.length with hlt | hge
    · rw [List.getElem?_append_left hlt, Nat.mod_eq_of_lt hlt]
    · rw [List.getElem?_append_right hge, Nat.mod_eq_sub_mod hge, ih]
      rw [Nat.succ_mul] at hplace
      omega

/-- Where one function gives nothing or what another gives, the two make the same of a list only if
they agree on all of it. -/
theorem eq_of_filterMap_eq {f g : α → Option β} {xs : List α}
    (hle : ∀ x ∈ xs, f x = none ∨ f x = g x) (heq : xs.filterMap f = xs.filterMap g) :
    ∀ x ∈ xs, f x = g x := by
  induction xs with
  | nil => exact fun x hx => absurd hx List.not_mem_nil
  | cons x xs ih =>
    obtain ⟨hhead, hrest⟩ := List.forall_mem_cons.mp hle
    have hhead : f x = g x := by
      rcases hhead with hnone | hsame
      · cases hg : g x with
        | none => exact hnone
        | some y =>
          -- then the second list would be longer than the first
          rw [List.filterMap_cons_none hnone, List.filterMap_cons_some hg] at heq
          have hcount : (xs.filterMap f).length ≤ (xs.filterMap g).length := by
            rw [List.length_filterMap_eq_countP, List.length_filterMap_eq_countP]
            refine List.countP_mono_left fun x hx hsome => ?_
            rcases hrest x hx with hnone | hsame
            · rw [hnone] at hsome
              cases hsome
            · rwa [← hsame]
          rw [heq, List.length_cons] at hcount
          omega
      · exact hsame
    refine List.forall_mem_cons.mpr ⟨hhead, ih hrest ?_⟩
    rw [List.filterMap_cons, List.filterMap_cons, ← hhead] at heq
    split at heq
    · exact heq
    · exact (List.cons.inj heq).2

/-- A maximum is no less than any of the numbers, nor than the number it began with. -/
theorem le_foldl_max (size : α → Nat) (xs : List α) (start : Nat) :
    start ≤ xs.foldl (fun greatest x => max greatest (size x)) start ∧
      ∀ x ∈ xs, size x ≤ xs.foldl (fun greatest x => max greatest (size x)) start := by
  induction xs generalizing start with
  | nil => exact ⟨Nat.le_refl _, fun x hx => absurd hx List.not_mem_nil⟩
  | cons x xs ih =>
    obtain ⟨hstart, hrest⟩ := ih (max start (size x))
    rw [List.foldl_cons]
    exact ⟨by omega, List.forall_mem_cons.mpr ⟨by omega, hrest⟩⟩

end Places

/-! ## Patterns in a cycle -/

namespace Pattern

/-- The text that a pattern plays at a step, if it plays one. -/
def soundAt? (pattern : Pattern) (policy : WrapPolicy) (step : Nat) : Option String :=
  (pattern.tokenAt step policy).bind StepToken.sound?

/-- What a pattern has for the steps of a cycle: its tokens, or the first of them when they are
repeated without end. -/
def entries (pattern : Pattern) (cycle : Nat) : WrapPolicy → List StepToken
  | .silent => pattern.steps
  | .loop => (List.replicate cycle pattern.steps).flatten.take cycle

/-- A pattern that plays a token a second time before the cycle ends, if it begins again. -/
def Wraps (pattern : Pattern) (cycle : Nat) : Prop :=
  ∃ place text, pattern.steps[place]? = some (.play text) ∧ place + pattern.length < cycle

variable {pattern : Pattern} {cycle : Nat}

theorem length_entries_le (h : pattern.length ≤ cycle) (policy : WrapPolicy) :
    (pattern.entries cycle policy).length ≤ cycle := by
  cases policy with
  | silent => exact h
  | loop => exact List.length_take_le _ _

/-- The entry for a step is the token at the step. -/
theorem getElem?_entries (policy : WrapPolicy) {step : Nat} (hstep : step < cycle) :
    (pattern.entries cycle policy)[step]? = pattern.tokenAt step policy := by
  cases policy with
  | silent => rfl
  | loop =>
    unfold entries tokenAt
    rw [List.getElem?_take_of_lt hstep]
    rcases Nat.eq_zero_or_pos pattern.steps.length with hempty | hpos
    · have hnil : pattern.steps = [] := List.eq_nil_of_length_eq_zero hempty
      simp [hnil]
    · exact getElem?_flatten_replicate _ _
        (Nat.lt_of_lt_of_le hstep (Nat.le_mul_of_pos_right cycle hpos))

/-- A walk through the entries, step by step. -/
theorem filterMap_entries {β : Type} (h : pattern.length ≤ cycle) (policy : WrapPolicy)
    (f : String → Nat → β) :
    (pattern.entries cycle policy).zipIdx.filterMap
        (fun (token, step) => token.sound?.map fun text => f text step) =
      (List.range cycle).filterMap fun step =>
        (pattern.soundAt? policy step).map fun text => f text step := by
  have hall := zipIdx_take (pattern.entries cycle policy) cycle
  rw [List.take_of_length_le (length_entries_le h policy)] at hall
  rw [hall, List.filterMap_filterMap]
  refine List.filterMap_congr fun step hstep => ?_
  rw [getElem?_entries policy (List.mem_range.mp hstep), soundAt?]
  cases pattern.tokenAt step policy <;> rfl

/-- Past the end of a pattern nothing is played, unless the pattern begins again. -/
theorem soundAt?_silent (pattern : Pattern) (step : Nat) :
    pattern.soundAt? .silent step = none ∨
      pattern.soundAt? .silent step = pattern.soundAt? .loop step := by
  unfold soundAt? tokenAt
  dsimp only
  rcases Nat.lt_or_ge step pattern.length with hlt | hge
  · rw [Nat.mod_eq_of_lt hlt]
    exact Or.inr rfl
  · rw [List.getElem?_eq_none hge]
    exact Or.inl rfl

/-- A pattern plays the same under both policies if and only if it plays no token a second time. -/
theorem soundAt?_silent_eq_loop_iff :
    (∀ step < cycle, pattern.soundAt? .silent step = pattern.soundAt? .loop step) ↔
      ¬ pattern.Wraps cycle := by
  unfold soundAt? tokenAt
  dsimp only
  constructor
  · rintro hsame ⟨place, text, htoken, hwraps⟩
    have hlt : place < pattern.length := (List.getElem?_eq_some_iff.mp htoken).1
    have hpast : pattern.steps[place + pattern.length]? = none :=
      List.getElem?_eq_none (Nat.le_add_left _ _)
    have hagain := hsame _ hwraps
    rw [hpast, Nat.add_mod_right, Nat.mod_eq_of_lt hlt, htoken] at hagain
    cases hagain
  · intro hwraps step hstep
    rcases Nat.lt_or_ge step pattern.length with hlt | hge
    · rw [Nat.mod_eq_of_lt hlt]
    · rw [List.getElem?_eq_none hge]
      cases htoken : pattern.steps[step % pattern.length]? with
      | none => rfl
      | some token =>
        cases token with
        | rest => rfl
        | play text =>
          -- the token is the one that the pattern has a round earlier
          refine absurd ⟨_, text, htoken, ?_⟩ hwraps
          have hround : step % pattern.length ≤ step - pattern.length := by
            rw [Nat.mod_eq_sub_mod hge]
            exact Nat.mod_le _ _
          omega

end Pattern

/-! ## The calls of a step -/

/-- The track that a call is for. -/
def BackendCall.track? {τ : Type} : BackendCall τ → Option Track
  | hit _ _ => some .drums
  | tone track _ _ _ => some track
  | volume _ => none
  | cancelAfter _ => none

theorem Track.track?_soundCall {τ : Type} (track : Track) (text : String) (duration time : τ) :
    (track.soundCall text duration time).track? = some track := by
  cases track <;> rfl

namespace PatternSet

variable {set : PatternSet}

/-- No pattern is longer than the cycle. -/
theorem length_le_cycleLength {track : Track} {pattern : Pattern}
    (h : set.get? track = some pattern) : pattern.length ≤ set.cycleLength := by
  have hmax := (le_foldl_max (fun entry : Track × Pattern => entry.2.length) set.toList 0).2
  exact hmax _ (mem_toList_of_get? h)

/-- Of what is made of the patterns of a set, what is for a track is made of its own pattern. -/
theorem filter_filterMap_toList {β : Type} (set : PatternSet) {f : Track × Pattern → Option β}
    {p : β → Bool} {track : Track}
    (h : ∀ entry b, f entry = some b → (p b = true ↔ entry.1 = track)) :
    (set.toList.filterMap f).filter p =
      ((set.get? track).bind fun pattern => f (track, pattern)).toList := by
  have hentry : ∀ entry, (f entry).filter p = if entry.1 = track then f entry else none := by
    intro entry
    cases hmade : f entry with
    | none => simp
    | some b => simp [Option.filter, h entry b hmade]
  have hfilter : set.toList.filterMap (fun entry => if entry.1 = track then f entry else none) =
      (set.toList.filter (·.1 = track)).filterMap f := by
    rw [List.filterMap_filter]
    simp
  rw [List.filter_filterMap]
  simp only [hentry]
  rw [hfilter, filter_toList]
  cases set.get? track with
  | none => rfl
  | some pattern =>
    show [(track, pattern)].filterMap f = (f (track, pattern)).toList
    cases hmade : f (track, pattern) <;> simp [hmade]

variable {τ : Type} (set) (policy : WrapPolicy)

theorem dispatch_eq (step : Nat) (duration time : τ) :
    set.dispatch policy step duration time =
      set.toList.filterMap fun (track, pattern) =>
        (pattern.soundAt? policy step).map fun text => track.soundCall text duration time := by
  refine List.filterMap_congr ?_
  rintro ⟨track, pattern⟩ _
  show (pattern.soundAt? policy step).bind _ = (pattern.soundAt? policy step).map _
  exact Option.map_eq_bind.symm

/-- A step makes one call at most for a track. -/
theorem filter_dispatch (step : Nat) (duration time : τ) (track : Track) :
    (set.dispatch policy step duration time).filter (·.track? = some track) =
      ((set.get? track).bind fun pattern => (pattern.soundAt? policy step).map fun text =>
        track.soundCall text duration time).toList := by
  rw [dispatch_eq, filter_filterMap_toList set ?_]
  rintro ⟨other, pattern⟩ call hcall
  obtain ⟨text, _, rfl⟩ := Option.map_eq_some_iff.mp hcall
  simp [Track.track?_soundCall]

/-- The calls of a step come in track order. -/
theorem tracks_dispatch_sublist (step : Nat) (duration time : τ) :
    ((set.dispatch policy step duration time).filterMap (·.track?)).Sublist Track.all := by
  have hplaying : (set.dispatch policy step duration time).filterMap (·.track?) =
      Track.all.filter fun track => ((set.get? track).bind (·.soundAt? policy step)).isSome := by
    rw [dispatch_eq, toList, List.filterMap_filterMap, List.filterMap_filterMap,
      ← List.filterMap_eq_filter]
    refine List.filterMap_congr fun track _ => ?_
    cases hget : set.get? track with
    | none => simp [Option.guard, hget]
    | some pattern =>
      show ((pattern.soundAt? policy step).map _).bind _ = _
      cases hsound : pattern.soundAt? policy step <;>
        simp [Option.guard, hget, hsound, Track.track?_soundCall]
  rw [hplaying]
  exact List.filter_sublist

/-! ## The calls of a pass -/

/-- The calls of one pass of the cycle, step by step.  Each step has its time, and a length for its
notes. -/
def pass (duration time : Nat → τ) : List (BackendCall τ) :=
  (List.range set.cycleLength).flatMap fun step =>
    set.dispatch policy step (duration step) (time step)

/-- The calls for a track are those of its own pattern, step by step. -/
theorem filter_pass_steps (duration time : Nat → τ) (track : Track) :
    (set.pass policy duration time).filter (·.track? = some track) =
      (List.range set.cycleLength).filterMap fun step =>
        (set.get? track).bind fun pattern => (pattern.soundAt? policy step).map fun text =>
          track.soundCall text (duration step) (time step) := by
  rw [pass, List.filter_flatMap, List.filterMap_eq_flatMap_toList]
  exact List.flatMap_congr fun step _ => set.filter_dispatch policy step _ _ track

/-- So they are those of a walk through the pattern. -/
theorem filter_pass (duration time : Nat → τ) (track : Track) :
    (set.pass policy duration time).filter (·.track? = some track) =
      match set.get? track with
      | none => []
      | some pattern =>
        (pattern.entries set.cycleLength policy).zipIdx.filterMap fun (token, step) =>
          token.sound?.map fun text => track.soundCall text (duration step) (time step) := by
  rw [filter_pass_steps]
  cases hget : set.get? track with
  | none => simp
  | some pattern =>
    exact (Pattern.filterMap_entries (length_le_cycleLength hget) policy fun text step =>
      track.soundCall text (duration step) (time step)).symm

/-- Every call of a pass sounds a token of a pattern, and in the way of its track. -/
theorem of_mem_pass {duration time : Nat → τ} {call : BackendCall τ}
    (hcall : call ∈ set.pass policy duration time) :
    ∃ track pattern step text, set.get? track = some pattern ∧ step < set.cycleLength ∧
      pattern.tokenAt step policy = some (.play text) ∧
      call = if track = .drums then .hit text (time step)
        else .tone track text (duration step) (time step) := by
  obtain ⟨step, hstep, hcall⟩ := List.mem_flatMap.mp hcall
  rw [dispatch_eq, List.mem_filterMap] at hcall
  obtain ⟨⟨track, pattern⟩, hentry, hcall⟩ := hcall
  obtain ⟨text, hsound, rfl⟩ := Option.map_eq_some_iff.mp hcall
  obtain ⟨token, htoken, htext⟩ := Option.bind_eq_some_iff.mp hsound
  refine ⟨track, pattern, step, text, get?_of_mem_toList hentry, List.mem_range.mp hstep, ?_, ?_⟩
  · cases token with
    | rest => cases htext
    | play word =>
      cases htext
      exact htoken
  · cases track <;> rfl

/-- The two policies make the same calls if and only if no pattern plays a token a second time. -/
theorem pass_silent_eq_pass_loop_iff (duration time : Nat → τ) :
    set.pass .silent duration time = set.pass .loop duration time ↔
      ∀ track pattern, set.get? track = some pattern → ¬ pattern.Wraps set.cycleLength := by
  constructor
  · intro hsame track pattern hget
    have htrack := congrArg (List.filter (·.track? = some track)) hsame
    rw [filter_pass_steps, filter_pass_steps, hget] at htrack
    have hsteps := eq_of_filterMap_eq (fun step _ => ?_) htrack
    · refine Pattern.soundAt?_silent_eq_loop_iff.mp fun step hstep => ?_
      rcases pattern.soundAt?_silent step with hnone | heq
      · have hstep := hsteps step (List.mem_range.mpr hstep)
        rw [Option.bind_some, Option.bind_some, hnone, Option.map_none, eq_comm,
          Option.map_eq_none_iff] at hstep
        rw [hnone, hstep]
      · exact heq
    · rcases pattern.soundAt?_silent step with hnone | heq
      · refine Or.inl ?_
        rw [Option.bind_some, hnone, Option.map_none]
      · refine Or.inr ?_
        rw [Option.bind_some, Option.bind_some, heq]
  · intro hwraps
    refine List.flatMap_congr fun step hstep => ?_
    rw [dispatch_eq, dispatch_eq]
    refine List.filterMap_congr ?_
    rintro ⟨track, pattern⟩ hentry
    have hnot := hwraps track pattern (get?_of_mem_toList hentry)
    dsimp only
    rw [Pattern.soundAt?_silent_eq_loop_iff.mpr hnot step (List.mem_range.mp hstep)]

/-! ## Counting calls -/

section Counting

variable {σ : Type} (perform : σ → BackendCall τ → σ)

/-- Calls a backend for one track's token at a step, unless it is a rest, and counts the call. -/
def fire (step : Nat) (duration time : τ) : Nat × σ → Track × Pattern → Nat × σ
  | (fired, backend), (track, pattern) =>
    match pattern.tokenAt step policy with
    | some (.play text) => (fired + 1, perform backend (track.soundCall text duration time))
    | _ => (fired, backend)

/-- Calls a backend for a step of a set, track by track, and answers with the number of calls. -/
def dispatchTo (step : Nat) (duration time : τ) (backend : σ) : Nat × σ :=
  set.toList.foldl (fire policy perform step duration time) (0, backend)

/-- Calls a backend for one pass of the cycle, and adds up the answers. -/
def passTo (duration time : Nat → τ) (backend : σ) : Nat × σ :=
  (List.range set.cycleLength).foldl (fun (total, backend) step =>
    let (fired, backend) := set.dispatchTo policy perform step (duration step) (time step) backend
    (total + fired, backend)) (0, backend)

theorem fire_eq (step : Nat) (duration time : τ) (fired : Nat) (backend : σ)
    (entry : Track × Pattern) :
    fire policy perform step duration time (fired, backend) entry =
      match (entry.2.soundAt? policy step).map fun text => entry.1.soundCall text duration time with
      | some call => (fired + 1, perform backend call)
      | none => (fired, backend) := by
  obtain ⟨track, pattern⟩ := entry
  unfold fire Pattern.soundAt?
  dsimp only
  rcases pattern.tokenAt step policy with _ | _ | text <;> rfl

/-- The backend is called for the calls of the step, and they are counted. -/
theorem dispatchTo_eq (step : Nat) (duration time : τ) (backend : σ) :
    set.dispatchTo policy perform step duration time backend =
      ((set.dispatch policy step duration time).length,
        (set.dispatch policy step duration time).foldl perform backend) := by
  have hfold : ∀ (entries : List (Track × Pattern)) (fired : Nat) (backend : σ),
      entries.foldl (fire policy perform step duration time) (fired, backend) =
        let calls := entries.filterMap fun (track, pattern) =>
          (pattern.soundAt? policy step).map fun text => track.soundCall text duration time
        (fired + calls.length, calls.foldl perform backend) := by
    intro entries
    induction entries with
    | nil => exact fun _ _ => rfl
    | cons entry rest ih =>
      intro fired backend
      rw [List.foldl_cons, fire_eq]
      dsimp only
      rw [List.filterMap_cons]
      split
      · next call hcall =>
        rw [hcall, ih]
        dsimp only
        rw [List.length_cons, List.foldl_cons, Nat.add_right_comm, Nat.add_assoc]
      · next hcall => rw [hcall, ih]
  rw [dispatchTo, hfold, dispatch_eq]
  dsimp only
  rw [Nat.zero_add]

/-- The backend is called for the calls of the pass, and the answers add up to their number. -/
theorem passTo_eq (duration time : Nat → τ) (backend : σ) :
    set.passTo policy perform duration time backend =
      ((set.pass policy duration time).length,
        (set.pass policy duration time).foldl perform backend) := by
  unfold passTo pass
  generalize List.range set.cycleLength = steps
  induction steps using List.reverseRecOn with
  | nil => rfl
  | append_singleton steps step ih =>
    rw [List.foldl_append, ih, List.flatMap_append, List.foldl_append, List.length_append]
    simp only [List.foldl_cons, List.foldl_nil, dispatchTo_eq, List.flatMap_singleton]

end Counting

/-! ## One pass -/

/-- One pass of the cycle plays every pattern as it is written.  The calls for a track are the
tokens of its pattern in order, each at its own step: once under `silent`, and under `loop` as often
as the pattern, repeated without end, has them before the cycle ends.  Each call sounds a token that
a pattern has at a step, drums as hits and other tracks as tones of their own; the calls of a step
are in track order; and the answers of the steps add up to the number of calls.  The policies make
the same calls if and only if no pattern plays a token a second time within the cycle. -/
theorem pass_plays_patterns (duration time : Nat → τ) :
    let calls := set.pass policy duration time
    (∀ track, calls.filter (·.track? = some track) =
      match set.get? track with
      | none => []
      | some pattern =>
        (pattern.entries set.cycleLength policy).zipIdx.filterMap fun (token, step) =>
          token.sound?.map fun text => track.soundCall text (duration step) (time step)) ∧
      (∀ call ∈ calls, ∃ track pattern step text,
        set.get? track = some pattern ∧ step < set.cycleLength ∧
          pattern.tokenAt step policy = some (.play text) ∧
          call = if track = .drums then .hit text (time step)
            else .tone track text (duration step) (time step)) ∧
      (∀ step, ((set.dispatch policy step (duration step) (time step)).filterMap
        (·.track?)).Sublist Track.all) ∧
      (∀ {σ : Type} (perform : σ → BackendCall τ → σ) (backend : σ),
        set.passTo policy perform duration time backend =
          (calls.length, calls.foldl perform backend)) ∧
      (set.pass .silent duration time = set.pass .loop duration time ↔
        ∀ track pattern, set.get? track = some pattern → ¬ pattern.Wraps set.cycleLength) :=
  ⟨set.filter_pass policy duration time, fun _ => set.of_mem_pass policy,
    fun step => set.tracks_dispatch_sublist policy step _ _,
    fun perform backend => set.passTo_eq policy perform duration time backend,
    set.pass_silent_eq_pass_loop_iff duration time⟩

/-- Three steps of drums, and one of the synth. -/
def drumsAndPedal : PatternSet :=
  ⟨some (.ofWords ["kick", "-", "snare"]), none, some (.ofWords ["C4"])⟩

/-- Where patterns begin again, the drums play their two hits and the synth plays at all three
steps; where they fall silent, the pass is another. -/
theorem pass_plays_patterns_drumsAndPedal :
    let calls : List (BackendCall Nat) := drumsAndPedal.pass .loop (fun _ => 1) id
    calls.filter (·.track? = some .drums) = [.hit "kick" 0, .hit "snare" 2] ∧
      calls.filter (·.track? = some .synth) =
        [.tone .synth "C4" 1 0, .tone .synth "C4" 1 1, .tone .synth "C4" 1 2] ∧
      (∃ pattern, drumsAndPedal.get? .drums = some pattern ∧
        pattern.tokenAt 2 .loop = some (.play "snare")) ∧
      drumsAndPedal.pass .silent (fun _ => 1) id ≠ calls := by
  intro calls
  obtain ⟨htracks, hcalls, _, _, hpolicies⟩ :=
    drumsAndPedal.pass_plays_patterns .loop (fun _ => (1 : Nat)) id
  have hdrums : calls.filter (·.track? = some .drums) = [.hit "kick" 0, .hit "snare" 2] :=
    (htracks .drums).trans rfl
  have hsnare : .hit "snare" 2 ∈ calls := by
    have hmem : .hit "snare" 2 ∈ calls.filter (·.track? = some .drums) := by
      rw [hdrums]
      exact List.mem_cons_of_mem _ List.mem_cons_self
    exact (List.mem_filter.mp hmem).1
  refine ⟨hdrums, (htracks .synth).trans rfl, ?_, ?_⟩
  · obtain ⟨track, pattern, step, text, hget, _, htoken, heq⟩ := hcalls _ hsnare
    split at heq
    · next htrack =>
      subst htrack
      cases heq
      exact ⟨pattern, hget, htoken⟩
    · cases heq
  · intro hsame
    exact hpolicies.mp hsame .synth _ rfl ⟨0, "C4", rfl, by decide⟩

end PatternSet

end Groovebox
