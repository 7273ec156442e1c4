import Groovebox.Proofs.Lists
import Groovebox.Proofs.RenderSteps

/-!
# What becomes of a note

A note that a renderer has read is queued.  It stays so until the first block whose end is past its
frame, which starts it, or until a command cancels what is later than an earlier frame.  The
`ledger` of some steps of a renderer lists the notes that were queued and then those that the steps
read, each with its fate.  `fateOf` says of one note what its fate is to be, whatever else is
queued; that the renderer's queue, which is in no order, treats every note so is
`ledger_perm_settled`: of a ledger, the notes that a step takes out of the queue are settled, and
what is left is the ledger of the steps that follow.
-/

namespace Groovebox

/-- What becomes of a note that a renderer has read.  The steps of the renderer are numbered. -/
inductive NoteFate where
  /-- The block of a step starts it. -/
  | started (place : Nat)
  /-- The cancel that a step reads removes it. -/
  | takenBack (place : Nat)
  /-- It waits for its frame. -/
  | queued
deriving DecidableEq, Repr

/-- The number of the step that settles a fate, unless it is still open. -/
def NoteFate.place? : NoteFate → Option Nat
  | started place | takenBack place => some place
  | queued => none

namespace RenderStep

/-- The frames that a step renders. -/
def frames : RenderStep → Nat
  | .block frames => frames
  | .rate _ | .read _ => 0

/-- The note that a step reads, if it reads one. -/
def note? : RenderStep → Option ScheduledNote
  | .read (.schedule note) => some note
  | _ => none

/-- The fate of the notes that a step takes out of the queue; most steps take none. -/
def verdict (place : Nat) : RenderStep → NoteFate
  | .block _ => .started place
  | .read (.cancelAfter _) => .takenBack place
  | .read (.schedule _) | .rate _ => .queued

theorem place?_verdict {step : RenderStep} {place k : Nat}
    (h : (step.verdict place).place? = some k) : place = k := by
  match step with
  | .block _ | .read (.cancelAfter _) => exact Option.some.inj h
  | .read (.schedule _) | .rate _ => cases h

/-- A step settles what becomes of a queued note: its block ends past the note's frame, or the note
is later than the frame of its cancel. -/
def Settles (clock : Nat) (note : ScheduledNote) : RenderStep → Prop
  | .block frames => note.frame < clock + frames
  | .read (.cancelAfter frame) => frame < note.frame
  | .read (.schedule _) | .rate _ => False

instance (clock : Nat) (note : ScheduledNote) (step : RenderStep) :
    Decidable (step.Settles clock note) :=
  match step with
  | .block frames => inferInstanceAs (Decidable (note.frame < clock + frames))
  | .read (.cancelAfter frame) => inferInstanceAs (Decidable (frame < note.frame))
  | .read (.schedule _) | .rate _ => inferInstanceAs (Decidable False)

end RenderStep

/-! ## The ledger -/

/-- What becomes of a queued note in some steps: the first step that settles it decides.  The number
of the first step and the frames rendered before it are given. -/
def fateOf (note : ScheduledNote) : Nat → Nat → List RenderStep → NoteFate
  | _, _, [] => .queued
  | place, clock, step :: rest =>
    if step.Settles clock note then step.verdict place
    else fateOf note (place + 1) (clock + step.frames) rest

/-- The notes that some steps read, each with what becomes of it in the steps after. -/
def arrivals : Nat → Nat → List RenderStep → List (ScheduledNote × NoteFate)
  | _, _, [] => []
  | place, clock, step :: rest =>
    (step.note?.map fun note =>
      (note, fateOf note (place + 1) (clock + step.frames) rest)).toList ++
        arrivals (place + 1) (clock + step.frames) rest

theorem map_fst_arrivals (place clock : Nat) (steps : List RenderStep) :
    (arrivals place clock steps).map (·.1) = steps.filterMap RenderStep.note? := by
  induction steps generalizing place clock with
  | nil => rfl
  | cons step rest ih =>
    rw [arrivals, List.map_append, ih, List.filterMap_cons]
    cases step.note? <;> rfl

/-- Some notes that are queued, and then those that some steps read, each with what becomes of it.
-/
def ledger (queued : List ScheduledNote) (place clock : Nat) (steps : List RenderStep) :
    List (ScheduledNote × NoteFate) :=
  queued.map (fun note => (note, fateOf note place clock steps)) ++ arrivals place clock steps

theorem map_fst_ledger (queued : List ScheduledNote) (place clock : Nat)
    (steps : List RenderStep) :
    (ledger queued place clock steps).map (·.1) =
      queued ++ steps.filterMap RenderStep.note? := by
  rw [ledger, List.map_append, map_fst_arrivals, List.map_map]
  exact congrArg (· ++ _) (List.map_id _)

/-- The order of the queued notes does not matter to their fates. -/
theorem ledger_perm {a b : List ScheduledNote} (h : a.Perm b) (place clock : Nat)
    (steps : List RenderStep) : (ledger a place clock steps).Perm (ledger b place clock steps) :=
  (h.map _).append_right _

namespace RenderState

/-- The notes that a step takes out of the queue, in the order in which it does. -/
def leaving (state : RenderState) : RenderStep → List ScheduledNote
  | .block frames => (Renderer.takeDue (state.clock + frames) state.renderer.queue).1
  | .read (.cancelAfter frame) => state.renderer.queue.filter (frame < ·.frame)
  | .read (.schedule _) | .rate _ => []

/-- The notes that some steps take out of the queue, with their fates. -/
def settled (state : RenderState) (place : Nat) : List RenderStep → List (ScheduledNote × NoteFate)
  | [] => []
  | step :: rest =>
    (state.leaving step).map (·, step.verdict place) ++
      (state.step step).settled (place + 1) rest

theorem clock_step (state : RenderState) (step : RenderStep) :
    (state.step step).clock = state.clock + step.frames := by
  cases step <;> rfl

/-- A step takes the notes out that it settles. -/
theorem settles_of_mem_leaving {state : RenderState} {step : RenderStep} {note : ScheduledNote}
    (h : note ∈ state.leaving step) : step.Settles state.clock note := by
  match step with
  | .block frames => exact Renderer.lt_of_mem_takeDue h
  | .read (.cancelAfter frame) => exact of_decide_eq_true (List.mem_filter.mp h).2
  | .read (.schedule _) | .rate _ => exact absurd h List.not_mem_nil

/-- What a step takes out and what it leaves were queued, or it has read it. -/
theorem leaving_append_queue (state : RenderState) (step : RenderStep) :
    (state.leaving step ++ (state.step step).renderer.queue).Perm
      (state.renderer.queue ++ step.note?.toList) := by
  rw [queue_step]
  match step with
  | .rate _ => exact .of_eq (List.append_nil _).symm
  | .read (.schedule note) => exact .refl _
  | .block frames =>
    exact (Renderer.takeDue_append_perm _ _).trans (.of_eq (List.append_nil _).symm)
  | .read (.cancelAfter frame) =>
    have hnot : (fun note : ScheduledNote => decide (note.frame ≤ frame)) =
        fun note => !decide (frame < note.frame) := by
      funext note
      rw [← decide_not]
      exact decide_eq_decide.mpr Nat.not_lt.symm
    show (_ ++ state.renderer.queue.filter (·.frame ≤ frame)).Perm _
    rw [hnot]
    exact (List.filter_append_perm _ _).trans (.of_eq (List.append_nil _).symm)

/-- A step does not settle what it leaves in the queue, and not what it reads. -/
theorem not_settles_of_mem_queue {state : RenderState} {step : RenderStep} {note : ScheduledNote}
    (h : note ∈ (state.step step).renderer.queue) (hread : step.note? = none) :
    ¬ step.Settles state.clock note := by
  rw [queue_step] at h
  match step with
  | .rate _ => exact id
  | .read (.schedule note) => cases hread
  | .block frames => exact Nat.not_lt.mpr (Renderer.le_of_mem_takeDue h)
  | .read (.cancelAfter frame) =>
    exact Nat.not_lt.mpr (of_decide_eq_true (List.mem_filter.mp h).2)

/-- The notes that a step takes out of the queue are settled by it, and the rest of the ledger is
the ledger of the steps that follow. -/
theorem ledger_cons (state : RenderState) (place : Nat) (step : RenderStep)
    (rest : List RenderStep) :
    (ledger state.renderer.queue place state.clock (step :: rest)).Perm
      ((state.leaving step).map (·, step.verdict place) ++
        ledger (state.step step).renderer.queue (place + 1) (state.step step).clock rest) := by
  rw [ledger, ledger, clock_step, arrivals]
  cases hnote : step.note? with
  | some note =>
    -- reading a note settles nothing
    match step with
    | .read (.schedule _) =>
      cases hnote
      refine .of_eq ?_
      show _ = _ ++ ((state.renderer.queue ++ [note]).map _ ++ _)
      rw [List.map_append, List.append_assoc]
      rfl
  | none =>
    -- what leaves the queue is settled here, and what stays is settled by the steps that follow
    have hqueue := leaving_append_queue state step
    rw [hnote, Option.toList_none, List.append_nil] at hqueue
    have hleaving : (state.leaving step).map
        (fun note => (note, fateOf note place state.clock (step :: rest))) =
          (state.leaving step).map (·, step.verdict place) :=
      List.map_congr_left fun note hmem => by
        rw [fateOf, if_pos (settles_of_mem_leaving hmem)]
    have hleft : (state.step step).renderer.queue.map
        (fun note => (note, fateOf note place state.clock (step :: rest))) =
          (state.step step).renderer.queue.map
            (fun note => (note, fateOf note (place + 1) (state.clock + step.frames) rest)) :=
      List.map_congr_left fun note hmem => by
        rw [fateOf, if_neg (not_settles_of_mem_queue hmem hnote)]
    have hall := hqueue.symm.map fun note =>
      (note, fateOf note place state.clock (step :: rest))
    rw [List.map_append, hleaving, hleft] at hall
    rw [Option.map_none, Option.toList_none, List.nil_append, ← List.append_assoc]
    exact hall.append_right _

/-- Every note that was queued or read is taken out with its fate, or queued at the end. -/
theorem ledger_perm_settled (state : RenderState) (place : Nat) (steps : List RenderStep) :
    (ledger state.renderer.queue place state.clock steps).Perm
      (state.settled place steps ++ (state.run steps).renderer.queue.map (·, .queued)) := by
  induction steps generalizing state place with
  | nil => exact .of_eq (List.append_nil _)
  | cons step rest ih =>
    refine (ledger_cons state place step rest).trans ?_
    rw [settled, List.append_assoc]
    exact (ih (state.step step) (place + 1)).append_left _

/-! ## Places -/

/-- Only a step that settles notes takes some out of the queue. -/
theorem leaving_of_verdict {state : RenderState} {step : RenderStep} {place : Nat}
    (h : step.verdict place = .queued) : state.leaving step = [] := by
  match step with
  | .block _ | .read (.cancelAfter _) => cases h
  | .read (.schedule _) | .rate _ => rfl

theorem withFate_queued_settled (state : RenderState) (place : Nat) (steps : List RenderStep) :
    withFate .queued (state.settled place steps) = [] := by
  induction steps generalizing state place with
  | nil => rfl
  | cons step rest ih =>
    rw [settled, withFate_append, ih, withFate_map, List.append_nil]
    split
    · next h => exact leaving_of_verdict h
    · rfl

/-- Steps settle notes at their own places. -/
theorem withFate_settled_of_place {fate : NoteFate} {k : Nat} (hfate : fate.place? = some k)
    (state : RenderState) {place : Nat} {steps : List RenderStep}
    (hk : k < place ∨ place + steps.length ≤ k) :
    withFate fate (state.settled place steps) = [] := by
  induction steps generalizing state place with
  | nil => rfl
  | cons step rest ih =>
    rw [List.length_cons] at hk
    have hne : step.verdict place ≠ fate := by
      rintro rfl
      have hplace := RenderStep.place?_verdict hfate
      omega
    rw [settled, withFate_append, withFate_map, if_neg hne, List.nil_append]
    exact ih (state.step step) (by omega)

theorem settled_append (state : RenderState) (place : Nat) (first rest : List RenderStep) :
    state.settled place (first ++ rest) =
      state.settled place first ++ (state.run first).settled (place + first.length) rest := by
  induction first generalizing state place with
  | nil => rfl
  | cons step first ih =>
    rw [List.cons_append, settled, settled, ih, List.append_assoc, List.length_cons,
      Nat.add_right_comm, ← Nat.add_assoc]
    rfl

/-- The notes that a step takes out of the queue are those of the ledger with its verdict. -/
theorem leaving_perm_withFate (state : RenderState) (first : List RenderStep)
    (step : RenderStep) (rest : List RenderStep)
    (h : (step.verdict first.length).place? = some first.length) :
    ((state.run first).leaving step).Perm
      (withFate (step.verdict first.length)
        (ledger state.renderer.queue 0 state.clock (first ++ step :: rest))) := by
  have hqueued : NoteFate.queued ≠ step.verdict first.length := by
    intro heq
    rw [← heq] at h
    cases h
  have hperm := withFate_perm (ledger_perm_settled state 0 (first ++ step :: rest))
    (step.verdict first.length)
  rw [withFate_append, withFate_map, if_neg hqueued, List.append_nil, settled_append, settled,
    withFate_append, withFate_append, withFate_map, Nat.zero_add, if_pos rfl,
    withFate_settled_of_place h _ (.inr (by omega)),
    withFate_settled_of_place h _ (.inl (by omega)), List.nil_append, List.append_nil] at hperm
  exact hperm.symm

/-- The notes that are queued at the end are those of the ledger that nothing settles. -/
theorem queue_perm_withFate (state : RenderState) (steps : List RenderStep) :
    (state.run steps).renderer.queue.Perm
      (withFate .queued (ledger state.renderer.queue 0 state.clock steps)) := by
  have hperm := withFate_perm (ledger_perm_settled state 0 steps) .queued
  rw [withFate_append, withFate_queued_settled, withFate_map, if_pos rfl] at hperm
  exact hperm.symm

/-! ## Blocks -/

/-- The state after a block that hands some notes over and leaves others.  Each instrument is given
the notes of its track at their frames, counted from the beginning of the block; a note that is late
plays at the beginning. -/
def playBlock (state : RenderState) (frames : Nat) (handed left : List ScheduledNote) :
    RenderState :=
  let calls (track : Track) : List (Queued Note) :=
    (handed.filter (·.track = track)).map fun note =>
      ⟨note.note, max note.frame state.clock - state.clock⟩
  let (renderer, noise) :=
    ({ state.renderer with queue := left }.receive calls).mixBlock state.noise frames
  ⟨renderer, noise, state.clock + frames⟩

theorem step_block (state : RenderState) (frames : Nat) :
    state.step (.block frames) = state.playBlock frames (state.leaving (.block frames))
      (state.step (.block frames)).renderer.queue := by
  have hcalls : ∀ notes : List ScheduledNote,
      (Renderer.callsOn · state.clock notes) = fun track =>
        (notes.filter (·.track = track)).map fun note =>
          ⟨note.note, max note.frame state.clock - state.clock⟩ := by
    intro notes
    funext track
    rw [Renderer.callsOn, Renderer.onTrack, List.map_map]
    refine List.map_congr_left fun note _ => ?_
    simp only [Function.comp_apply, Queued.sooner, Queued.mk.injEq, true_and]
    omega
  rw [queue_step, step, Renderer.load_eq, hcalls]
  rfl

/-- A note that a block hands over plays within the block. -/
theorem offset_lt_of_mem_leaving {state : RenderState} {frames : Nat} (hframes : 0 < frames)
    {note : ScheduledNote} (h : note ∈ state.leaving (.block frames)) :
    max note.frame state.clock - state.clock < frames := by
  have hlt := Renderer.lt_of_mem_takeDue h
  omega

end RenderState

/-! ## Buffers -/

namespace Deck

/-- A buffer leaves no note of a frame before its end. -/
theorem le_of_mem_queue_fill {deck : Deck} {frames sampleRate channels : Nat} (hframes : 0 < frames)
    {note : ScheduledNote}
    (h : note ∈ (deck.next (.fill frames sampleRate channels)).renderer.queue) :
    (deck.next (.fill frames sampleRate channels)).link.state.framesRendered ≤ note.frame := by
  have hcount := Renderer.channels_pos channels
  have hle := Renderer.le_of_mem_queue_render deck.renderer deck.link
    (Nat.mul_pos hframes hcount) h
  obtain ⟨hclock, _⟩ :=
    deck.renderer.render_link deck.link (samples frames channels) sampleRate channels
  exact hclock.trans_le hle

/-- Every note that a renderer reads, or had queued, is started by the first block whose end is past
the note's frame; or it is taken back by a cancel of an earlier frame, read after the note and
before that block; or it is still queued.  Each note meets its fate once.  A block hands a note to
the instrument of its track, at a frame within the block. -/
theorem every_note_has_one_fate (deck : Deck) (cues : List DeckCue) :
    let steps := deck.steps cues
    let entries := ledger deck.renderer.queue 0 deck.link.state.framesRendered steps
    (deck.after cues).playing = deck.playing.run steps ∧
      deck.link.channel.waiting ++
          (if deck.link.channel.isOpen then cues.filterMap DeckCue.sent? else []) =
        steps.filterMap RenderStep.command? ++ (deck.after cues).link.channel.waiting ∧
      entries.map (·.1) = deck.renderer.queue ++ steps.filterMap RenderStep.note? ∧
      (∀ first frames rest, steps = first ++ .block frames :: rest →
        let before := deck.playing.run first
        ∃ handed left : List ScheduledNote,
          handed.Perm (withFate (.started first.length) entries) ∧
          (∀ note ∈ handed, max note.frame before.clock - before.clock < frames) ∧
          (handed ++ left).Perm before.renderer.queue ∧
          before.step (.block frames) = before.playBlock frames handed left) ∧
      (∀ first frame rest, steps = first ++ .read (.cancelAfter frame) :: rest →
        let before := deck.playing.run first
        (before.renderer.queue.filter (frame < ·.frame)).Perm
            (withFate (.takenBack first.length) entries) ∧
          (before.step (.read (.cancelAfter frame))).renderer.queue =
            before.renderer.queue.filter (·.frame ≤ frame)) ∧
      (deck.after cues).renderer.queue.Perm (withFate .queued entries) ∧
      (∀ frames sampleRate channels, 0 < frames →
        let filled := (deck.after cues).next (.fill frames sampleRate channels)
        ∀ note ∈ filled.renderer.queue, filled.link.state.framesRendered ≤ note.frame) := by
  intro steps entries
  have hafter : (deck.after cues).playing = deck.playing.run steps := deck.playing_after cues
  refine ⟨hafter, deck.waiting_append_sent cues, map_fst_ledger _ _ _ _, ?_, ?_, ?_,
    fun _ _ _ hframes _ => le_of_mem_queue_fill hframes⟩
  · intro first frames rest hsteps before
    have hfits : (RenderStep.block frames).Fits := by
      refine fits_of_mem_steps (?_ : _ ∈ steps)
      rw [hsteps]
      exact List.mem_append_right _ List.mem_cons_self
    have hperm := deck.playing.leaving_perm_withFate first (.block frames) rest rfl
    rw [← hsteps] at hperm
    have hqueue := before.leaving_append_queue (.block frames)
    refine ⟨_, _, hperm, ?_, hqueue.trans (.of_eq (List.append_nil _)), before.step_block frames⟩
    intro note
    exact RenderState.offset_lt_of_mem_leaving hfits.1
  · intro first frame rest hsteps before
    have hperm := deck.playing.leaving_perm_withFate first
      (.read (.cancelAfter frame)) rest rfl
    rw [← hsteps] at hperm
    exact ⟨hperm, before.queue_step _⟩
  · have hperm := deck.playing.queue_perm_withFate steps
    rwa [← hafter] at hperm

end Deck

end Groovebox
