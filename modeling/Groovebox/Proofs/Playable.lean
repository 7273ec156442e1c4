import Groovebox.Panel.StepGrid
import Groovebox.Proofs.CyclePass
import Groovebox.Proofs.Performance
import Groovebox.Proofs.TrackLines

/-!
# What can be played

Three parts of the program say whether a token can sound on a track: `check` when it reads the text,
the step grid when it colours the token's cell, and the engine's backend when it is called to sound
the token.  The first two ask `isValidToken`.  The backend looks the token up by itself, and finds
it if `isValidToken` holds (`isSome_noteFor?_soundCall`), but for the word of the rest, which no
token of a compiled pattern has (`mem_ofWords`).
-/

namespace Groovebox

/-! ## The cells of a grid -/

/-- The place and the colour of a filled cell. -/
def GridItem.cell? : GridItem → Option (Rect × Colour)
  | .cell rect colour => some (rect, colour)
  | _ => none

namespace StepGrid

/-- The filled cells among what is painted, in order. -/
def cells (items : List GridItem) : List (Rect × Colour) :=
  items.filterMap GridItem.cell?

/-- The colour of a track's tokens that can sound. -/
def trackColour : Track → Colour
  | .drums => ⟨70, 110, 160⟩
  | .bass => ⟨70, 140, 90⟩
  | .synth => ⟨140, 90, 150⟩

/-- The colour of tokens that cannot sound. -/
def invalidColour : Colour := ⟨120, 50, 50⟩

/-- The colour of rests. -/
def restColour : Colour := .grey 38

/-- The colour of the steps past the end of a pattern. -/
def pastEndColour : Colour := .grey 22

theorem cellColour_play (track : Track) (token : String) :
    cellColour track (some (.play token)) =
      if PatternText.isValidToken token track then trackColour track else invalidColour := by
  cases h : PatternText.isValidToken token track <;>
    cases track <;> simp [cellColour, trackColour, invalidColour, h]

theorem trackColour_ne (track : Track) :
    trackColour track ≠ invalidColour ∧ trackColour track ≠ restColour ∧
      trackColour track ≠ pastEndColour := by
  cases track <;> decide

theorem cellColour_mem (track : Track) (token : Option StepToken) :
    cellColour track token ∈ [trackColour track, invalidColour, restColour, pastEndColour] := by
  rcases token with _ | _ | token
  · simp [cellColour, pastEndColour]
  · simp [cellColour, restColour]
  · rw [cellColour_play]
    split <;> simp

/-- A cell has the colour of its track if and only if its token can sound. -/
theorem cellColour_eq_trackColour_iff {track : Track} {token : Option StepToken} :
    cellColour track token = trackColour track ↔
      ∃ text, token = some (.play text) ∧ PatternText.isValidToken text track = true := by
  obtain ⟨hinvalid, hrest, hpast⟩ := trackColour_ne track
  rcases token with _ | _ | token
  · simpa [cellColour, pastEndColour] using Ne.symm hpast
  · simpa [cellColour, restColour] using Ne.symm hrest
  · rw [cellColour_play]
    by_cases h : PatternText.isValidToken token track = true
    · simp [h]
    · simp [h, Ne.symm hinvalid]

/-- A cell is drawn as invalid if and only if its token cannot sound. -/
theorem cellColour_eq_invalidColour_iff {track : Track} {token : Option StepToken} :
    cellColour track token = invalidColour ↔
      ∃ text, token = some (.play text) ∧ PatternText.isValidToken text track = false := by
  rcases token with _ | _ | token
  · simp [cellColour, invalidColour, Colour.grey]
  · simp [cellColour, invalidColour, Colour.grey]
  · rw [cellColour_play]
    by_cases h : PatternText.isValidToken token track = true
    · simp [h, (trackColour_ne track).1]
    · simp [h]

/-- One cell is painted for a step. -/
theorem cells_paintStep (policy : WrapPolicy) (current : Option Nat) (width : Float32) (row : Nat)
    (track : Track) (pattern : Pattern) (step : Nat) :
    cells (paintStep policy current width row track pattern step) =
      [(cellRect width row step, cellColour track (pattern.tokenAt step policy))] := by
  have hring : ∀ rect : Rect,
      (if current = some step then [GridItem.ring rect .white] else []).filterMap
        GridItem.cell? = [] := by
    intro rect
    split <;> rfl
  rw [paintStep, cells, List.cons_append]
  show _ :: List.filterMap GridItem.cell? (_ ++ _) = _
  rw [List.filterMap_append, hring, List.nil_append]
  cases (pattern.tokenAt step policy).bind StepToken.sound? with
  | none => rfl
  | some token =>
    dsimp only
    split <;> rfl

theorem cells_paintRow (policy : WrapPolicy) (current : Option Nat) (width : Float32)
    (cycle row : Nat) (track : Track) (pattern : Pattern) :
    cells (paintRow policy current width cycle row track pattern) =
      (List.range cycle).map fun step =>
        (cellRect width row step, cellColour track (pattern.tokenAt step policy)) := by
  rw [paintRow, cells, List.filterMap_cons]
  show ((List.range cycle).flatMap _).filterMap GridItem.cell? = _
  rw [List.filterMap_flatMap, List.map_eq_flatMap]
  exact List.flatMap_congr fun step _ => cells_paintStep policy current width row track pattern step

/-- In rows of one length, an entry is found by its row and its column. -/
theorem getElem?_flatMap_rows {α β : Type} {f : α → List β} {length : Nat}
    (hlength : ∀ x, (f x).length = length) (xs : List α) (row : Nat) {column : Nat}
    (hcolumn : column < length) :
    (xs.flatMap f)[row * length + column]? = xs[row]?.bind fun x => (f x)[column]? := by
  induction xs generalizing row with
  | nil => rfl
  | cons x rest ih =>
    rw [List.flatMap_cons]
    cases row with
    | zero =>
      rw [Nat.zero_mul, Nat.zero_add, List.getElem?_append_left (by rw [hlength]; exact hcolumn)]
      rfl
    | succ row =>
      have hsub : (row + 1) * length + column - length = row * length + column := by
        rw [Nat.succ_mul]
        omega
      have hle : length ≤ (row + 1) * length + column := by
        rw [Nat.succ_mul]
        omega
      rw [List.getElem?_append_right (by rw [hlength]; exact hle), hlength, hsub, ih]
      rfl

/-- The cell of a step in a row of the grid. -/
theorem getElem?_cells_paint (policy : WrapPolicy) {set : PatternSet} {row : Nat} {track : Track}
    {pattern : Pattern} (hrow : set.toList[row]? = some (track, pattern)) {step : Nat}
    (hstep : step < set.cycleLength) (current : Option Nat) (width : Float32) :
    (cells (paint policy set current width))[row * set.cycleLength + step]? =
      some (cellRect (cellWidth width set.cycleLength) row step,
        cellColour track (pattern.tokenAt step policy)) := by
  have hcycle : set.cycleLength ≠ 0 := by omega
  rw [paint, if_neg hcycle, cells, List.filterMap_flatMap, getElem?_flatMap_rows _ _ row hstep,
    List.getElem?_zipIdx, hrow]
  · show (cells (paintRow ..))[step]? = _
    rw [cells_paintRow, List.getElem?_map, List.getElem?_range hstep, Nat.zero_add]
    rfl
  · rintro ⟨⟨track, pattern⟩, row⟩
    show (cells (paintRow ..)).length = _
    rw [cells_paintRow, List.length_map, List.length_range]

end StepGrid

/-! ## Tokens of a compiled pattern -/

/-- What a pattern of words plays are its words, but for the word of the rest. -/
theorem Pattern.mem_ofWords {words : List String} {token : String} :
    .play token ∈ (Pattern.ofWords words).steps ↔ token ∈ words ∧ token ≠ StepToken.restText := by
  rw [Pattern.ofWords, List.mem_map]
  constructor
  · rintro ⟨word, hword, heq⟩
    rw [StepToken.ofString] at heq
    split at heq
    · cases heq
    · next hne =>
      cases heq
      exact ⟨hword, hne⟩
  · rintro ⟨hword, hne⟩
    exact ⟨token, hword, by rw [StepToken.ofString, if_neg hne]⟩

/-! ## What the backend is called for -/

variable {τ : Type} [TimeScale τ]

namespace EngineState

/-- The backend finds a token that can sound, and no other. -/
theorem isSome_noteFor?_soundCall (state : EngineState) (track : Track) {token : String}
    (htoken : token ≠ StepToken.restText) (duration time : τ) :
    (state.noteFor? (track.soundCall token duration time)).isSome =
      PatternText.isValidToken token track := by
  have hrest : (token == StepToken.restText) = false := by simpa using htoken
  have hcommand := (state.commandFor?_soundCall track token duration time).1
  have hsome := congrArg Option.isSome hcommand
  rw [Option.isSome_map] at hsome
  rw [← hsome, PatternText.isValidToken, hrest, Bool.false_or, Track.soundCall]
  split
  · exact Option.isSome_map ..
  · exact Option.isSome_map ..

theorem track_of_noteFor? {state : EngineState} {track : Track} {token : String}
    {duration time : τ} {note : ScheduledNote}
    (h : state.noteFor? (track.soundCall token duration time) = some note) :
    note.track = track := by
  have hcommand := (state.commandFor?_soundCall track token duration time).1
  rw [h, Track.soundCall] at hcommand
  split at hcommand
  · next hpercussion =>
    obtain ⟨_, _, heq⟩ := Option.map_eq_some_iff.mp hcommand
    cases heq
    cases track with
    | drums => rfl
    | _ => cases hpercussion
  · obtain ⟨_, _, heq⟩ := Option.map_eq_some_iff.mp hcommand
    cases heq
    rfl

/-- The note of one track at a step, if there is one. -/
def noteAt? (state : EngineState) (policy : WrapPolicy) (tick : Tick τ) (track : Track)
    (pattern : Pattern) : Option ScheduledNote :=
  ((pattern.tokenAt tick.step policy).bind StepToken.sound?).bind fun token =>
    state.noteFor? (track.soundCall token tick.duration tick.time)

/-- A track has a note at a step if and only if the grid draws the step in the track's colour. -/
theorem isSome_noteAt?_iff (state : EngineState) (policy : WrapPolicy) (tick : Tick τ)
    (track : Track) (words : List String) :
    (state.noteAt? policy tick track (.ofWords words)).isSome = true ↔
      StepGrid.cellColour track ((Pattern.ofWords words).tokenAt tick.step policy) =
        StepGrid.trackColour track := by
  rw [StepGrid.cellColour_eq_trackColour_iff, noteAt?]
  cases htoken : (Pattern.ofWords words).tokenAt tick.step policy with
  | none => simp
  | some token =>
    cases token with
    | rest => simp [StepToken.sound?]
    | play text =>
      have hne := (Pattern.mem_ofWords.mp (Pattern.mem_of_tokenAt htoken)).2
      simp [StepToken.sound?, state.isSome_noteFor?_soundCall track hne]

/-- The notes of a tick, track by track. -/
theorem notesOf_eq (state : EngineState) (policy : WrapPolicy) (tick : Tick τ) :
    state.notesOf policy tick =
      tick.patterns.toList.filterMap fun (track, pattern) =>
        state.noteAt? policy tick track pattern := by
  rw [notesOf, Tick.calls, PatternSet.dispatch, List.filterMap_filterMap]
  refine List.filterMap_congr ?_
  rintro ⟨track, pattern⟩ _
  show (((pattern.tokenAt tick.step policy).bind StepToken.sound?).bind fun token =>
    some (track.soundCall token tick.duration tick.time)).bind state.noteFor? = _
  rw [Option.bind_assoc]
  rfl

/-- Of the notes of a tick, those for a track are the one of its own pattern. -/
theorem filter_notesOf (state : EngineState) (policy : WrapPolicy) (tick : Tick τ)
    (track : Track) :
    (state.notesOf policy tick).filter (·.track = track) =
      ((tick.patterns.get? track).bind (state.noteAt? policy tick track)).toList := by
  rw [notesOf_eq, PatternSet.filter_filterMap_toList]
  rintro ⟨other, pattern⟩ note hnote
  obtain ⟨token, _, hfound⟩ := Option.bind_eq_some_iff.mp hnote
  rw [decide_eq_true_iff, track_of_noteFor? hfound]

/-- A track has one note of a tick if the grid draws the step in its colour, and else none. -/
theorem length_filter_notesOf (state : EngineState) (policy : WrapPolicy) {tick : Tick τ}
    {track : Track} {words : List String}
    (h : tick.patterns.get? track = some (.ofWords words)) :
    ((state.notesOf policy tick).filter (·.track = track)).length =
      if StepGrid.cellColour track ((Pattern.ofWords words).tokenAt tick.step policy) =
        StepGrid.trackColour track then 1 else 0 := by
  have hcolour := state.isSome_noteAt?_iff policy tick track words
  rw [filter_notesOf, h, Option.bind_some]
  cases hnote : state.noteAt? policy tick track (.ofWords words) with
  | none =>
    rw [hnote] at hcolour
    exact (if_neg (mt hcolour.mpr Bool.false_ne_true)).symm
  | some note =>
    rw [hnote] at hcolour
    exact (if_pos (hcolour.mp rfl)).symm

end EngineState

/-- Commands that are sent on an open channel wait in it. -/
theorem CommandChannel.waiting_foldl_send {channel : CommandChannel}
    (hopen : channel.isOpen = true) (commands : List EngineCommand) :
    (commands.foldl send channel).waiting = channel.waiting ++ commands := by
  induction commands generalizing channel with
  | nil => exact (List.append_nil _).symm
  | cons command rest ih =>
    have hsent : channel.send command = { channel with waiting := channel.waiting ++ [command] } :=
      if_pos hopen
    have hstill : (channel.send command).isOpen = true := by rw [hsent]; exact hopen
    rw [List.foldl_cons, ih hstill, hsent, List.append_assoc, List.singleton_append]

/-- Calls that leave the level alone send their commands, even if no one reads them any more. -/
theorem EngineLink.foldl_perform_eq_send (link : EngineLink) {calls : List (BackendCall τ)}
    (hcalls : ∀ call ∈ calls, ∀ db, call ≠ .volume db) :
    calls.foldl perform link = { link with
      channel := (calls.filterMap link.state.commandFor?).foldl CommandChannel.send
        link.channel } := by
  induction calls generalizing link with
  | nil => rfl
  | cons call rest ih =>
    have hrest : ∀ call' ∈ rest, ∀ db, call' ≠ .volume db :=
      fun call' hcall' => hcalls call' (.tail _ hcall')
    rw [List.foldl_cons, perform.eq_2 link call (hcalls call List.mem_cons_self),
      List.filterMap_cons]
    cases link.state.commandFor? call with
    | none => exact ih link hrest
    | some command => exact ih { link with channel := link.channel.send command } hrest

/-- The notes of a tick are what its calls send. -/
theorem EngineLink.foldl_perform_tick (link : EngineLink) (policy : WrapPolicy) (tick : Tick τ) :
    (tick.calls policy).foldl perform link = { link with
      channel := ((link.state.notesOf policy tick).map .schedule).foldl CommandChannel.send
        link.channel } := by
  rw [← link.state.commands_of_tick policy tick]
  refine link.foldl_perform_eq_send fun call hcall db => ?_
  obtain ⟨track, token, rfl⟩ := Tick.exists_of_mem_calls hcall
  rw [Track.soundCall]
  split <;> exact fun hvolume => by cases hvolume

/-! ## What `check` reports of the last line -/

namespace PatternText

/-- The last line for a track: its number and its text after the colon. -/
def IsLastLine (text : String) (track : Track) (number : Nat) (body : List Char) : Prop :=
  ∃ before later, readLines text = before ++ .forTrack track body :: later ∧
    bodies track later = [] ∧ number = 1 + before.length

/-- The pattern of a track is what its last line says. -/
theorem exists_isLastLine {text : String} {track : Track} {pattern : Pattern}
    (h : (compile text).get? track = some pattern) :
    ∃ number body, IsLastLine text track number body ∧
      pattern = Pattern.ofWords (tokens body) := by
  rw [get?_compile, Option.map_eq_some_iff] at h
  obtain ⟨body, hbody, rfl⟩ := h
  obtain ⟨before, later, hlines, hlater⟩ := getLast?_bodies_eq_some_iff.mp hbody
  exact ⟨1 + before.length, body, ⟨before, later, hlines, hlater, rfl⟩, rfl⟩

/-- A token of the last line is reported if and only if it cannot sound. -/
theorem invalidToken_mem_check_iff {text : String} {track : Track} {number : Nat}
    {body : List Char} (h : IsLastLine text track number body) {token : String} :
    ⟨number, .invalidToken track token⟩ ∈ check text ↔
      token ∈ tokens body ∧ isValidToken token track = false := by
  obtain ⟨before, later, hlines, _, rfl⟩ := h
  rw [check_eq_advice, mem_advice_iff]
  have hfaults : ∀ later', Fault.invalidToken track token ∈
      (Line.forTrack track body).allFaults (1 + before.length) later' ↔
        token ∈ tokens body ∧ isValidToken token track = false := by
    intro later'
    simp [Line.allFaults, Line.faults, Line.replaced?]
  constructor
  · rintro ⟨before', line, later', heq, hlength, hmem⟩
    rw [hlines] at heq
    obtain ⟨_, htail⟩ := List.append_inj heq (by omega)
    cases htail
    exact (hfaults later).mp hmem
  · intro htoken
    exact ⟨before, _, later, hlines, rfl, (hfaults later).mpr htoken⟩

end PatternText

/-! ## The three agree -/

section Agreement

open PatternText StepGrid

/-- For a step of the cycle and a track of the set: the grid draws the track's own colour if and
only if the backend schedules a note for the track, which then is the only one, and the colour of an
invalid token if and only if `check` reports the token on the track's last line.  What `check`
accepts on that line the backend sounds, and nothing else. -/
theorem check_grid_backend_agree (text : String) (policy : WrapPolicy) {track : Track}
    {pattern : Pattern} (hpattern : (compile text).get? track = some pattern) {step : Nat}
    (hstep : step < (compile text).cycleLength) (current : Option Nat) (width : Float32) :
    ∃ row colour number body,
      (compile text).toList[row]? = some (track, pattern) ∧
      (cells (paint policy (compile text) current width))[
          row * (compile text).cycleLength + step]? =
        some (cellRect (cellWidth width (compile text).cycleLength) row step, colour) ∧
      colour ∈ [trackColour track, invalidColour, restColour, pastEndColour] ∧
      IsLastLine text track number body ∧
      pattern = .ofWords (tokens body) ∧
      (colour = invalidColour ↔ ∃ token, pattern.tokenAt step policy = some (.play token) ∧
        ⟨number, .invalidToken track token⟩ ∈ check text) ∧
      ∀ {τ : Type} [TimeScale τ] (link : EngineLink) (duration time : τ),
        (∃ notes : List ScheduledNote,
          ((compile text).dispatch policy step duration time).foldl EngineLink.perform link =
            { link with
              channel := (notes.map .schedule).foldl CommandChannel.send link.channel } ∧
          (link.channel.isOpen = true →
            ((notes.map .schedule).foldl CommandChannel.send link.channel).waiting =
              link.channel.waiting ++ notes.map .schedule) ∧
          (notes.filter (·.track = track)).length =
            if colour = trackColour track then 1 else 0) ∧
        ∀ token, .play token ∈ pattern.steps →
          ((link.state.noteFor? (track.soundCall token duration time)).isSome = true ↔
            ⟨number, .invalidToken track token⟩ ∉ check text) := by
  obtain ⟨row, hrow⟩ := List.getElem?_of_mem (PatternSet.mem_toList_of_get? hpattern)
  obtain ⟨number, body, hlast, rfl⟩ := exists_isLastLine hpattern
  refine ⟨row, _, number, body, hrow, getElem?_cells_paint policy hrow hstep current width,
    cellColour_mem _ _, hlast, rfl, ?_, ?_⟩
  · rw [cellColour_eq_invalidColour_iff]
    refine exists_congr fun token => and_congr_right fun htoken => ?_
    have hmem := (Pattern.mem_ofWords.mp (Pattern.mem_of_tokenAt htoken)).1
    rw [invalidToken_mem_check_iff hlast]
    exact ⟨fun h => ⟨hmem, h⟩, And.right⟩
  · intro τ _ link duration time
    constructor
    · -- the loop that a tick comes from has no part in its calls
      let tick : Tick τ := ⟨0, time, step, compile text, duration⟩
      exact ⟨link.state.notesOf policy tick, link.foldl_perform_tick policy tick,
        fun hopen => CommandChannel.waiting_foldl_send hopen _,
        link.state.length_filter_notesOf policy hpattern⟩
    · intro token htoken
      obtain ⟨hmem, hne⟩ := Pattern.mem_ofWords.mp htoken
      rw [link.state.isSome_noteFor?_soundCall track hne, invalidToken_mem_check_iff hlast]
      simp [hmem]

/-- A word that is no drum hit is drawn in the colour of what cannot sound, and is reported. -/
theorem check_grid_backend_agree_zap :
    ∃ row number body,
      (compile "drums: kick zap").get? .drums = some ⟨[.play "kick", .play "zap"]⟩ ∧
      1 < (compile "drums: kick zap").cycleLength ∧
      (cells (paint .silent (compile "drums: kick zap") none 400))[
          row * (compile "drums: kick zap").cycleLength + 1]? =
        some (cellRect (cellWidth 400 (compile "drums: kick zap").cycleLength) row 1,
          invalidColour) ∧
      IsLastLine "drums: kick zap" .drums number body ∧
      ⟨number, .invalidToken .drums "zap"⟩ ∈ check "drums: kick zap" := by
  have hpattern : (compile "drums: kick zap").get? .drums =
      some ⟨[.play "kick", .play "zap"]⟩ := by
    decide
  have hstep : 1 < (compile "drums: kick zap").cycleLength := by decide
  obtain ⟨row, colour, number, body, _, hcell, _, hlast, _, hinvalid, hbackend⟩ :=
    check_grid_backend_agree "drums: kick zap" .silent hpattern hstep none 400
  have hsilent := (hbackend (EngineLink.fresh ⟨0⟩) (0 : Rat) 0).2 "zap" (by decide)
  have hnote : ((EngineLink.fresh ⟨0⟩).state.noteFor?
      (Track.drums.soundCall "zap" (0 : Rat) 0)).isSome = false := by
    decide
  have hmem : ⟨number, .invalidToken .drums "zap"⟩ ∈ check "drums: kick zap" := by
    by_contra hnot
    rw [hsilent.mpr hnot] at hnote
    cases hnote
  have hcolour : colour = invalidColour := hinvalid.mpr ⟨"zap", rfl, hmem⟩
  exact ⟨row, number, body, hpattern, hstep, hcolour ▸ hcell, hlast, hmem⟩

end Agreement

end Groovebox
