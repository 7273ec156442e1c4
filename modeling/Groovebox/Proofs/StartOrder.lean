import Groovebox.Proofs.NoteFates
import Groovebox.Proofs.Playing

/-!
# The order in which notes are started

The notes of one track are in musical order when the one of the smaller frame comes first, and of
two notes of one frame the one sent first.  A block starts the notes of a track in the order of the
frames at which they play, as an instrument sorts what waits (`notesStarted_eq`).  But notes that
play at one frame, which are those of one frame and all those that are late, are started in the
order in which they are taken out of the queue; and there the last note takes the place of each one
that is taken out.  So the order is the musical one exactly when the notes that play at one frame
are taken out in musical order (`started_in_order_iff`), as they are if each plays at a frame of its
own.
-/

namespace Groovebox

/-- A note is for a track whose instrument can play it. -/
def ScheduledNote.plays (note : ScheduledNote) (track : Track) : Bool :=
  note.track = track &&
    if track.isPercussion then note.note.hit?.isSome else note.note.tone?.isSome

/-- The hits that a block starts, in order. -/
def DrumKit.started (kit : DrumKit) (noise : Noise) (frames : Nat) : List DrumHit :=
  ((player kit.rate kit.params).noting.renderBlock frames kit.waiting
    ((kit.voices, noise), [])).state.2

theorem DrumKit.started_eq {kit : DrumKit} {frames : Nat} (hframes : frames ≤ maxBlock)
    (h : ∀ note ∈ kit.waiting, note.offset < frames) (noise : Noise) :
    kit.started noise frames = (Player.inOrder kit.waiting).map (·.item) :=
  ((player kit.rate kit.params).renderBlock_noting hframes h (kit.voices, noise)).2

/-- The tones that a block starts, in order. -/
def MonoSynth.started (synth : MonoSynth) (frames : Nat) : List (Float × Nat) :=
  ((player synth.rate.toFloat synth.preset).noting.renderBlock frames synth.waiting
    ((synth.voices, synth.filter), [])).state.2

theorem MonoSynth.started_eq {synth : MonoSynth} {frames : Nat} (hframes : frames ≤ maxBlock)
    (h : ∀ note ∈ synth.waiting, note.offset < frames) :
    synth.started frames = (Player.inOrder synth.waiting).map (·.item) :=
  ((player synth.rate.toFloat synth.preset).renderBlock_noting hframes h
    (synth.voices, synth.filter)).2

namespace Renderer

/-- Of its calls an instrument takes those that it can play. -/
theorem map_select_callsOn {β : Type} {item? : Note → Option β} {back : β → Note}
    (hback : ∀ note item, item? note = some item → back item = note) (track : Track) (clock : Nat)
    (notes : List ScheduledNote) :
    (Queued.select item? (callsOn track clock notes)).map
        (fun call => (⟨back call.item, call.offset⟩ : Queued Note)) =
      (notes.filter fun note => note.track = track && (item? note.note).isSome).map
        fun note => ⟨note.note, note.frame - clock⟩ := by
  induction notes with
  | nil => rfl
  | cons note rest ih =>
    rw [callsOn_cons, List.filter_cons]
    by_cases htrack : note.track = track
    · rw [if_pos htrack, Queued.select_cons, List.map_append, ih]
      cases hitem : item? note.note with
      | none => simp
      | some item => simp [htrack, hback _ _ hitem]
    · rw [if_neg htrack, ih]
      simp [htrack]

/-- An instrument starts the calls that it can play in the order of the frames at which they play,
and those of one frame in the order of the calls. -/
theorem map_inOrder_select {β : Type} {item? : Note → Option β} {back : β → Note}
    (hback : ∀ note item, item? note = some item → back item = note) (track : Track) (clock : Nat)
    (notes : List ScheduledNote) :
    ((Player.inOrder (Queued.select item? (callsOn track clock notes))).map (·.item)).map back =
      (sortedBy (max ·.frame clock) (notes.filter fun note =>
        note.track = track && (item? note.note).isSome)).map (·.note) := by
  let takes (note : ScheduledNote) : Bool := note.track = track && (item? note.note).isSome
  have htop : ∀ a b : ScheduledNote,
      max a.frame clock ≤ max b.frame clock ↔ a.frame - clock ≤ b.frame - clock := by
    intro a b
    omega
  have hcalls : (sortedBy (·.offset) (Queued.select item? (callsOn track clock notes))).map
      (fun call => (⟨back call.item, call.offset⟩ : Queued Note)) =
        (sortedBy (max ·.frame clock) (notes.filter takes)).map
          fun note => ⟨note.note, note.frame - clock⟩ := by
    rw [map_sortedBy Queued.offset fun _ _ _ _ => Iff.rfl, map_select_callsOn hback,
      map_sortedBy Queued.offset fun a _ b _ => htop a b]
  have hnotes := congrArg (List.map (·.item)) hcalls
  rw [List.map_map, List.map_map] at hnotes
  rw [List.map_map]
  exact hnotes

end Renderer

namespace RenderState

/-- The notes that a block starts on a track, in order. -/
def notesStarted (state : RenderState) (frames : Nat) (track : Track) : List Note :=
  let loaded := state.renderer.load state.clock frames
  match track with
  | .drums => (loaded.drums.started state.noise frames).map .hit
  | .bass => (loaded.bass.started frames).map fun tone => .tone tone.1 tone.2
  | .synth => (loaded.synth.started frames).map fun tone => .tone tone.1 tone.2

/-- The notes of a track that a block takes out of the queue, sorted by the frames at which they
play; a late note plays at the first. -/
def startOrder (state : RenderState) (frames : Nat) (track : Track) : List ScheduledNote :=
  sortedBy (max ·.frame state.clock) ((state.leaving (.block frames)).filter (·.plays track))

/-- The notes that a block starts are those that it takes out, sorted by the frames at which they
play. -/
theorem notesStarted_eq {state : RenderState} (hidle : state.renderer.Idle) {frames : Nat}
    (hfits : (RenderStep.block frames).Fits) (track : Track) :
    state.notesStarted frames track = (state.startOrder frames track).map (·.note) := by
  obtain ⟨hdrums, hbass, hsynth⟩ := hidle.load state.clock frames
  have hit_back : ∀ note drum, Note.hit? note = some drum → Note.hit drum = note := by
    rintro (drum | _) _ ⟨⟩
    rfl
  have tone_back : ∀ note (tone : Float × Nat),
      Note.tone? note = some tone → Note.tone tone.1 tone.2 = note := by
    rintro (_ | ⟨frequency, frames⟩) _ ⟨⟩
    rfl
  cases track with
  | drums =>
    rw [notesStarted, DrumKit.started_eq hfits.2, hdrums]
    · exact Renderer.map_inOrder_select hit_back _ _ _
    · rw [hdrums]
      exact fun _ => Renderer.offset_lt_of_mem_select hfits.1
  | bass =>
    rw [notesStarted, MonoSynth.started_eq hfits.2, hbass]
    · exact Renderer.map_inOrder_select tone_back _ _ _
    · rw [hbass]
      exact fun _ => Renderer.offset_lt_of_mem_select hfits.1
  | synth =>
    rw [notesStarted, MonoSynth.started_eq hfits.2, hsynth]
    · exact Renderer.map_inOrder_select tone_back _ _ _
    · rw [hsynth]
      exact fun _ => Renderer.offset_lt_of_mem_select hfits.1

end RenderState

namespace Deck

/-- The notes of a track that a block starts are in the order of the frames at which they play.
They are in musical order if and only if, for each frame, the notes that play there are taken out of
the queue in that order; in particular if no two notes play at one frame. -/
theorem started_in_order_iff {deck : Deck} (hidle : deck.renderer.Idle) {sent : List ScheduledNote}
    (hsent : sent.Perm deck.renderer.queue) (cues : List DeckCue) :
    let steps := deck.steps cues
    let entries := ledger sent 0 deck.link.state.framesRendered steps
    ∀ first frames rest, steps = first ++ .block frames :: rest → ∀ track,
      let before := deck.playing.run first
      let top (note : ScheduledNote) : Nat := max note.frame before.clock
      let taken := (before.leaving (.block frames)).filter (·.plays track)
      let due := (withFate (.started first.length) entries).filter (·.plays track)
      let started := before.startOrder frames track
      let musical := sortedBy (·.frame) due
      before.notesStarted frames track = started.map (·.note) ∧
        started.Perm due ∧
        started.Pairwise (top · ≤ top ·) ∧
        (started = musical ↔
          ∀ frame, taken.filter (top · = frame) = musical.filter (top · = frame)) ∧
        (due.Pairwise (top · ≠ top ·) → started = musical) := by
  intro steps entries first frames rest hsteps track before top taken due started musical
  have hall : ∀ step ∈ first ++ .block frames :: rest, step.Fits := by
    rw [← hsteps]
    exact fun _ => fits_of_mem_steps
  have hfits : (RenderStep.block frames).Fits :=
    hall _ (List.mem_append_right _ List.mem_cons_self)
  have hbefore : before.renderer.Idle :=
    hidle.run fun step hmem => hall step (List.mem_append_left _ hmem)
  -- the block takes out what the ledger says, in whatever order the notes are queued
  have htaken : taken.Perm due := by
    have hleaving := deck.playing.leaving_perm_withFate first (.block frames) rest rfl
    have hentries := withFate_perm
      (ledger_perm hsent 0 deck.link.state.framesRendered (first ++ .block frames :: rest))
      (.started first.length)
    rw [← hsteps] at hleaving hentries
    exact (hleaving.trans hentries.symm).filter _
  have hstarted : started.Perm due := (sortedBy_perm top taken).trans htaken
  have hmusical : musical.Pairwise (top · ≤ top ·) :=
    (pairwise_sortedBy (·.frame) due).imp fun {a b} hle => by
      show max a.frame before.clock ≤ max b.frame before.clock
      omega
  have htop : started.Pairwise (top · ≤ top ·) := pairwise_sortedBy top taken
  refine ⟨RenderState.notesStarted_eq hbefore hfits track, hstarted, htop, ?_, ?_⟩
  · constructor
    · intro heq frame
      rw [← heq]
      exact (filter_sortedBy top taken frame).symm
    · intro hclass
      refine eq_of_filter_eq htop hmusical fun frame => ?_
      rw [← hclass frame]
      exact filter_sortedBy top taken frame
  · intro hdistinct
    have hsort := eq_sortedBy_of_distinct hmusical (sortedBy_perm _ due) hdistinct
    exact (eq_sortedBy_of_distinct htop hstarted hdistinct).trans hsort.symm

/-! ## Three hits -/

/-- A kick, a closed hat and an open hat at some frames, sent in that order when 512 frames are
rendered. -/
def hats (kick closed opened : Nat) : List ScheduledNote :=
  [⟨kick, .drums, .hit .kick⟩, ⟨closed, .drums, .hit .hihat⟩, ⟨opened, .drums, .hit .openhat⟩]

/-- The cues that play the three hits on a new deck. -/
def hatCues (kick closed opened : Nat) : List DeckCue :=
  .fill 512 44100 1 :: (hats kick closed opened).map (.send <| .schedule ·) ++ [.fill 4096 44100 1]

/-- What happens before the hits are played. -/
def hatSteps (kick closed opened : Nat) : List RenderStep :=
  [.rate 44100, .block 512, .rate 44100] ++
    ((hats kick closed opened).map EngineCommand.schedule).map .read

theorem steps_hatCues (kick closed opened : Nat) :
    new.steps (hatCues kick closed opened) = hatSteps kick closed opened ++ [.block 4096] := rfl

theorem idle_hatSteps (kick closed opened : Nat) :
    (new.playing.run (hatSteps kick closed opened)).renderer.Idle := by
  refine Renderer.Idle.run ⟨rfl, rfl, rfl⟩ fun step hmem => ?_
  have hsteps : step ∈ new.steps (hatCues kick closed opened) := by
    rw [steps_hatCues]
    exact List.mem_append_left _ hmem
  exact fits_of_mem_steps hsteps

theorem queue_hatSteps (kick closed opened : Nat) :
    (new.playing.run (hatSteps kick closed opened)).renderer.queue = hats kick closed opened := by
  rw [hatSteps, RenderState.run_append, RenderState.run_read]
  have hempty : (new.playing.run [.rate 44100, .block 512, .rate 44100]).renderer.queue = [] := by
    let started := new.playing.step (.rate 44100)
    show ((started.step (.block 512)).step (.rate 44100)).renderer.queue = []
    rw [RenderState.queue_step, RenderState.queue_step, RenderState.queue_step]
    show (Renderer.takeDue _ []).2 = []
    rw [Renderer.takeDue]
  rw [hempty]
  rfl

/-- The hits are started in musical order when each plays at a frame of its own, though they are
sent in another. -/
theorem started_in_order_iff_apart :
    (new.playing.run (hatSteps 700 600 0)).notesStarted 4096 .drums =
      [.hit .openhat, .hit .hihat, .hit .kick] := by
  obtain ⟨hnotes, _, _, _, hmusical⟩ :=
    started_in_order_iff ⟨rfl, rfl, rfl⟩ (List.Perm.refl _) (hatCues 700 600 0)
      (hatSteps 700 600 0) 4096 [] (steps_hatCues 700 600 0) .drums
  have hdue : (withFate (.started (hatSteps 700 600 0).length) (ledger new.renderer.queue 0
      new.link.state.framesRendered (new.steps (hatCues 700 600 0)))).filter (·.plays .drums) =
        hats 700 600 0 := by
    rw [steps_hatCues]
    rfl
  have hclock : (new.playing.run (hatSteps 700 600 0)).clock = 512 := rfl
  rw [hdue, hclock] at hmusical
  have hsorted : (hats 700 600 0).reverse = sortedBy (·.frame) (hats 700 600 0) :=
    eq_sortedBy_of_distinct (by decide) (List.reverse_perm _) (by decide)
  rw [hnotes, hmusical (by decide), ← hsorted]
  rfl

/-- The open hat is later than the closed one and sent after it; but when both are late, it is
started first, as the kick before them leaves its place in the queue to it. -/
theorem late_hats_started_in_reverse :
    let before := new.playing.run (hatSteps 0 86 172)
    new.steps (hatCues 0 86 172) = hatSteps 0 86 172 ++ [.block 4096] ∧
      (before.startOrder 4096 .drums).map (·.frame) = [0, 172, 86] ∧
      before.notesStarted 4096 .drums = [.hit .kick, .hit .openhat, .hit .hihat] := by
  intro before
  have htaken : before.leaving (.block 4096) =
      [⟨0, .drums, .hit .kick⟩, ⟨172, .drums, .hit .openhat⟩, ⟨86, .drums, .hit .hihat⟩] := by
    show (Renderer.takeDue (512 + 4096) before.renderer.queue).1 = _
    rw [queue_hatSteps]
    simp [hats, Renderer.takeDue, Renderer.lastToFront]
  have horder : before.startOrder 4096 .drums =
      [⟨0, .drums, .hit .kick⟩, ⟨172, .drums, .hit .openhat⟩, ⟨86, .drums, .hit .hihat⟩] := by
    rw [RenderState.startOrder, htaken]
    exact List.mergeSort_of_pairwise (by decide)
  have hnotes : before.notesStarted 4096 .drums = (before.startOrder 4096 .drums).map (·.note) :=
    RenderState.notesStarted_eq (idle_hatSteps 0 86 172) ⟨by decide, by decide⟩ .drums
  rw [horder] at hnotes
  exact ⟨steps_hatCues 0 86 172, by rw [horder]; rfl, hnotes⟩

end Deck

end Groovebox
