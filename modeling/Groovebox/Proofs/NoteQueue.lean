import Groovebox.Engine.Renderer
import Mathlib.Algebra.Order.Ring.Nat
import Mathlib.Data.List.Basic
import Mathlib.Data.List.Perm.Basic

/-!
# The renderer's queue of notes

A renderer keeps the notes that it has read in a queue, and hands each to its instrument in the
block that reaches the note's frame.  The queue is in no order, as the last note takes the place of
each one that is taken out; but no note is lost or doubled (`perm_takeDue`), so that the notes which
a call to `render` hands over, together with those that it leaves, are the ones that were queued or
waiting in the channel (`startedBy_append_queue`).
-/

namespace Groovebox

namespace Renderer

/-! ## Taking notes out -/

theorem perm_lastToFront {α : Type} (xs : List α) : (lastToFront xs).Perm xs := by
  rw [lastToFront]
  split
  · next last h =>
    obtain ⟨front, rfl⟩ := List.getLast?_eq_some_iff.mp h
    rw [List.dropLast_concat]
    exact (List.perm_append_singleton last front).symm
  · next h =>
    rw [List.getLast?_eq_none_iff.mp h]

/-- The notes that are taken out are those before the frame, and the others are left. -/
theorem perm_takeDue (blockEnd : Nat) (queue : List ScheduledNote) :
    (takeDue blockEnd queue).1.Perm (queue.filter (·.frame < blockEnd)) ∧
      (takeDue blockEnd queue).2.Perm (queue.filter (blockEnd ≤ ·.frame)) := by
  induction queue using takeDue.induct blockEnd with
  | case1 =>
    rw [takeDue]
    exact ⟨List.Perm.refl _, List.Perm.refl _⟩
  | case2 note rest hlate _ _ _ ih =>
    rw [takeDue, if_pos hlate, List.filter_cons_of_neg (by simpa using hlate),
      List.filter_cons_of_pos (by simpa using hlate)]
    exact ⟨ih.1, ih.2.cons note⟩
  | case3 note rest hdue _ _ _ ih =>
    rw [takeDue, if_neg hdue, List.filter_cons_of_pos (by simpa using hdue),
      List.filter_cons_of_neg (by simpa using hdue)]
    have hrest := perm_lastToFront rest
    exact ⟨(ih.1.trans (hrest.filter _)).cons note, ih.2.trans (hrest.filter _)⟩

theorem lt_of_mem_takeDue {blockEnd : Nat} {queue : List ScheduledNote} {note : ScheduledNote}
    (h : note ∈ (takeDue blockEnd queue).1) : note.frame < blockEnd := by
  have hmem := (perm_takeDue blockEnd queue).1.subset h
  simpa using (List.mem_filter.mp hmem).2

theorem le_of_mem_takeDue {blockEnd : Nat} {queue : List ScheduledNote} {note : ScheduledNote}
    (h : note ∈ (takeDue blockEnd queue).2) : blockEnd ≤ note.frame := by
  have hmem := (perm_takeDue blockEnd queue).2.subset h
  simpa using (List.mem_filter.mp hmem).2

/-- Every note is before a frame or not. -/
theorem filter_frame_append_perm (frame : Nat) (queue : List ScheduledNote) :
    (queue.filter (·.frame < frame) ++ queue.filter (frame ≤ ·.frame)).Perm queue := by
  have hnot : (fun note : ScheduledNote => decide (frame ≤ note.frame)) =
      fun note => !decide (note.frame < frame) := by
    funext note
    rw [← decide_not]
    exact decide_eq_decide.mpr Nat.not_lt.symm
  rw [hnot]
  exact List.filter_append_perm _ queue

/-- Every note is taken out or left. -/
theorem takeDue_append_perm (blockEnd : Nat) (queue : List ScheduledNote) :
    ((takeDue blockEnd queue).1 ++ (takeDue blockEnd queue).2).Perm queue := by
  obtain ⟨hdue, hleft⟩ := perm_takeDue blockEnd queue
  exact (hdue.append hleft).trans (filter_frame_append_perm blockEnd queue)

/-! ## Blocks -/

section Blocks

variable (gain : Float32) (channels : Nat)

/-- The notes that a renderer hands to its instruments in blocks of the given sizes. -/
def handedOver : List Nat → Renderer → EngineLink → List ScheduledNote
  | [], _, _ => []
  | samples :: rest, renderer, link =>
    let (_, after, link') := renderer.renderBlock link gain channels samples
    (takeDue (link.state.framesRendered + samples / channels) renderer.queue).1 ++
      handedOver rest after link'

/-- Handing notes over leaves the queue. -/
theorem queue_foldl_handOver (blockStart : Nat) (notes : List ScheduledNote) (renderer : Renderer) :
    (notes.foldl (·.handOver blockStart ·) renderer).queue = renderer.queue := by
  induction notes generalizing renderer with
  | nil => rfl
  | cons note rest ih =>
    rw [List.foldl_cons, ih, handOver]
    split <;> rfl

theorem queue_renderBlock (renderer : Renderer) (link : EngineLink) (samples : Nat) :
    (renderer.renderBlock link gain channels samples).2.1.queue =
      (takeDue (link.state.framesRendered + samples / channels) renderer.queue).2 := by
  show (List.foldl (fun renderer note => renderer.handOver link.state.framesRendered note) _
    _ : Renderer).queue = _
  rw [queue_foldl_handOver]

theorem framesRendered_renderBlock (renderer : Renderer) (link : EngineLink) (samples : Nat) :
    (renderer.renderBlock link gain channels samples).2.2.state.framesRendered =
      link.state.framesRendered + samples / channels := rfl

/-- Blocks move the clock by their frames, and change nothing else that both sides see. -/
theorem renderBlocks_link (sizes : List Nat) (renderer : Renderer) (link : EngineLink) :
    (renderBlocks gain channels sizes renderer link).2.2.state =
        { link.state with
          framesRendered := link.state.framesRendered + (sizes.map (· / channels)).sum } ∧
      (renderBlocks gain channels sizes renderer link).2.2.channel = link.channel := by
  induction sizes generalizing renderer link with
  | nil => exact ⟨rfl, rfl⟩
  | cons samples rest ih =>
    obtain ⟨hstate, hchannel⟩ := ih (renderer.renderBlock link gain channels samples).2.1
      (renderer.renderBlock link gain channels samples).2.2
    rw [renderBlocks]
    refine ⟨hstate.trans ?_, hchannel⟩
    rw [framesRendered_renderBlock, List.map_cons, List.sum_cons, Nat.add_assoc]
    rfl

/-- Blocks hand over notes of the queue and leave the others. -/
theorem handedOver_append_queue (sizes : List Nat) (renderer : Renderer) (link : EngineLink) :
    (handedOver gain channels sizes renderer link ++
      (renderBlocks gain channels sizes renderer link).2.1.queue).Perm renderer.queue := by
  induction sizes generalizing renderer link with
  | nil => exact List.Perm.refl _
  | cons samples rest ih =>
    have hrest := ih (renderer.renderBlock link gain channels samples).2.1
      (renderer.renderBlock link gain channels samples).2.2
    rw [queue_renderBlock] at hrest
    rw [handedOver, renderBlocks, List.append_assoc]
    exact (hrest.append_left _).trans (takeDue_append_perm _ renderer.queue)

/-- A note that is handed over is before the frame that the clock comes to. -/
theorem lt_of_mem_handedOver {sizes : List Nat} {renderer : Renderer} {link : EngineLink}
    {note : ScheduledNote} (h : note ∈ handedOver gain channels sizes renderer link) :
    note.frame < link.state.framesRendered + (sizes.map (· / channels)).sum := by
  induction sizes generalizing renderer link with
  | nil => exact absurd h List.not_mem_nil
  | cons samples rest ih =>
    rw [handedOver, List.mem_append] at h
    rw [List.map_cons, List.sum_cons]
    rcases h with h | h
    · have hlt := lt_of_mem_takeDue h
      omega
    · have hlt := ih h
      rw [framesRendered_renderBlock] at hlt
      omega

/-- A note that blocks leave is not before the frame that the clock comes to. -/
theorem le_of_mem_queue_renderBlocks {sizes : List Nat} (hsizes : sizes ≠ []) {renderer : Renderer}
    {link : EngineLink} {note : ScheduledNote}
    (h : note ∈ (renderBlocks gain channels sizes renderer link).2.1.queue) :
    link.state.framesRendered + (sizes.map (· / channels)).sum ≤ note.frame := by
  induction sizes generalizing renderer link with
  | nil => exact absurd rfl hsizes
  | cons samples rest ih =>
    rw [renderBlocks] at h
    rw [List.map_cons, List.sum_cons]
    by_cases hrest : rest = []
    · subst hrest
      have hleft : note ∈ (renderer.renderBlock link gain channels samples).2.1.queue := h
      rw [queue_renderBlock] at hleft
      exact le_of_mem_takeDue hleft
    · have hle := ih hrest h
      rw [framesRendered_renderBlock] at hle
      omega

end Blocks

/-! ## Buffers -/

/-- A buffer has at least one channel. -/
theorem channels_pos (channels : Nat) : 0 < max channels 1 :=
  Nat.lt_of_lt_of_le Nat.zero_lt_one (Nat.le_max_right _ _)

section Buffers

variable (renderer : Renderer) (link : EngineLink) (samples sampleRate channels : Nat)

/-- The notes that wait to be handed over, once the commands in the channel are obeyed. -/
def backlog : List ScheduledNote :=
  link.channel.waiting.foldl obey renderer.queue

/-- The notes that a renderer hands to its instruments while it fills a buffer. -/
def startedBy : List ScheduledNote :=
  handedOver link.state.masterGain (max channels 1) (pieces (maxBlock * max channels 1) samples)
    { renderer.setRate sampleRate with queue := renderer.backlog link }
    { link with channel := link.channel.drained }

theorem queue_setRate : (renderer.setRate sampleRate).queue = renderer.queue := by
  rw [setRate]
  split <;> rfl

/-- The blocks of a buffer have as many frames as the buffer. -/
theorem sum_pieces {count : Nat} (hcount : 0 < count) :
    ((pieces (maxBlock * count) samples).map (· / count)).sum = samples / count := by
  have hlimit : maxBlock * count / count = maxBlock := Nat.mul_div_cancel _ hcount
  have hrest : ((if samples % (maxBlock * count) = 0 then []
      else [samples % (maxBlock * count)]).map (· / count)).sum =
        samples % (maxBlock * count) / count := by
    split
    · next hzero => rw [hzero, Nat.zero_div, List.map_nil, List.sum_nil]
    · rw [List.map_singleton, List.sum_singleton]
  have hall : samples / count = (count * (samples / (maxBlock * count) * maxBlock) +
      samples % (maxBlock * count)) / count := by
    rw [Nat.mul_comm count, Nat.mul_assoc, Nat.mul_comm (_ / _), Nat.div_add_mod]
  rw [pieces, List.map_append, List.sum_append, List.map_replicate, List.sum_replicate_nat, hlimit,
    hrest, hall, Nat.mul_add_div hcount]

/-- A buffer moves the clock by its frames, empties the channel, and leaves the sample rate. -/
theorem render_link :
    (renderer.render link samples sampleRate channels).2.2.state.framesRendered =
        link.state.framesRendered + samples / max channels 1 ∧
      (renderer.render link samples sampleRate channels).2.2.state.sampleRate =
        link.state.sampleRate ∧
      (renderer.render link samples sampleRate channels).2.2.channel = link.channel.drained := by
  obtain ⟨hstate, hchannel⟩ := renderBlocks_link link.state.masterGain (max channels 1)
    (pieces (maxBlock * max channels 1) samples)
    { renderer.setRate sampleRate with
      queue := link.channel.waiting.foldl obey (renderer.setRate sampleRate).queue }
    { link with channel := link.channel.drained }
  have hcount := channels_pos channels
  rw [sum_pieces samples hcount] at hstate
  exact ⟨congrArg (·.framesRendered) hstate, congrArg (·.sampleRate) hstate, hchannel⟩

/-- A buffer hands over notes that wait and leaves the others. -/
theorem startedBy_append_queue :
    (renderer.startedBy link samples sampleRate channels ++
      (renderer.render link samples sampleRate channels).2.1.queue).Perm
        (renderer.backlog link) := by
  have hblocks := handedOver_append_queue link.state.masterGain (max channels 1)
    (pieces (maxBlock * max channels 1) samples)
    { renderer.setRate sampleRate with queue := renderer.backlog link }
    { link with channel := link.channel.drained }
  have hobeyed : link.channel.waiting.foldl obey (renderer.setRate sampleRate).queue =
      renderer.backlog link := by
    rw [queue_setRate, backlog]
  rw [startedBy]
  refine (List.Perm.append_left _ ?_).trans hblocks
  show List.Perm (renderBlocks _ _ _ { renderer.setRate sampleRate with
    queue := link.channel.waiting.foldl obey (renderer.setRate sampleRate).queue } _).2.1.queue _
  rw [hobeyed]

variable {samples sampleRate channels}

theorem lt_of_mem_startedBy {note : ScheduledNote}
    (h : note ∈ renderer.startedBy link samples sampleRate channels) :
    note.frame < link.state.framesRendered + samples / max channels 1 := by
  have hcount := channels_pos channels
  have hlt := lt_of_mem_handedOver _ _ h
  rwa [sum_pieces samples hcount] at hlt

/-- A buffer leaves no note of its own frames. -/
theorem le_of_mem_queue_render (hsamples : 0 < samples) {note : ScheduledNote}
    (h : note ∈ (renderer.render link samples sampleRate channels).2.1.queue) :
    link.state.framesRendered + samples / max channels 1 ≤ note.frame := by
  have hcount := channels_pos channels
  have hsizes : pieces (maxBlock * max channels 1) samples ≠ [] := by
    intro hnil
    rw [pieces, List.append_eq_nil_iff, List.replicate_eq_nil_iff] at hnil
    obtain ⟨hfull, hrest⟩ := hnil
    split at hrest
    · next hmod =>
      have hall := Nat.div_add_mod samples (maxBlock * max channels 1)
      rw [hfull, hmod] at hall
      omega
    · exact absurd hrest (List.cons_ne_nil _ _)
  have hle := le_of_mem_queue_renderBlocks _ _ hsizes h
  rwa [sum_pieces samples hcount] at hle

/-- A buffer starts every waiting note of its frames. -/
theorem mem_startedBy (hsamples : 0 < samples) {note : ScheduledNote}
    (hnote : note ∈ renderer.backlog link)
    (hframe : note.frame < link.state.framesRendered + samples / max channels 1) :
    note ∈ renderer.startedBy link samples sampleRate channels := by
  have hperm := renderer.startedBy_append_queue link samples sampleRate channels
  rcases List.mem_append.mp (hperm.mem_iff.mpr hnote) with hstarted | hleft
  · exact hstarted
  · have hlate := renderer.le_of_mem_queue_render link hsamples hleft
    exact absurd hframe (Nat.not_lt.mpr hlate)

end Buffers

end Renderer

end Groovebox
