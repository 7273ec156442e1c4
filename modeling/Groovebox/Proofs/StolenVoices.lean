import Groovebox.Instrument.MonoSynth
import Groovebox.Proofs.Moments
import Mathlib.Data.Finset.Max

/-!
# The voice that makes way

A voice counts the frames of its tone, and a tone that finds no voice free takes the one that has
counted the most.  So it takes one whose tone was started in the earliest frame (`Told`).  Of the
tones of that frame the counts cannot tell the first, and it is the voice with the highest place
that is taken (`tone_takes_voice`).  To say which tone was started first, all that a synth has done
is kept (`history`).
-/

namespace Groovebox

/-- An entry of a list with one more at its end is one of the list, or the last. -/
theorem of_getElem?_concat {α : Type} {entries : List α} {last entry : α} {place : Nat}
    (h : (entries ++ [last])[place]? = some entry) :
    entries[place]? = some entry ∧ place < entries.length ∨
      entry = last ∧ place = entries.length := by
  rcases Nat.lt_or_ge place entries.length with hlt | hge
  · rw [List.getElem?_append_left hlt] at h
    exact Or.inl ⟨h, hlt⟩
  · rw [List.getElem?_append_right hge, List.getElem?_singleton] at h
    split at h
    · exact Or.inr ⟨(Option.some.inj h).symm, by omega⟩
    · cases h

/-- The place found is that of a greatest entry, and no entry as great stands behind it. -/
theorem lastMaxIndex_spec {entries : List Nat} (hne : entries ≠ []) :
    ∃ greatest, entries[lastMaxIndex entries]? = some greatest ∧
      ∀ place entry, entries[place]? = some entry →
        entry ≤ greatest ∧ (entry = greatest → place ≤ lastMaxIndex entries) := by
  unfold lastMaxIndex
  generalize hbest : entries.zipIdx.foldl
    (fun best entry : Nat × Nat => if best.1 ≤ entry.1 then entry else best) (0, 0) = best
  refine ⟨best.1, ?_⟩
  induction entries using List.reverseRecOn generalizing best with
  | nil => exact absurd rfl hne
  | append_singleton entries last ih =>
    rw [List.zipIdx_append, List.foldl_append] at hbest
    simp only [List.zipIdx_singleton, List.foldl_cons, List.foldl_nil, Nat.zero_add] at hbest
    split at hbest
    · next hle =>
      subst hbest
      refine ⟨List.getElem?_concat_length, fun place entry hentry => ?_⟩
      rcases of_getElem?_concat hentry with ⟨hearlier, hlt⟩ | ⟨rfl, rfl⟩
      · have hbefore := (ih (List.ne_nil_of_length_pos (by omega)) _ rfl).2 place entry hearlier
        exact ⟨by omega, fun _ => hlt.le⟩
      · exact ⟨le_rfl, fun _ => le_rfl⟩
    · next hgt =>
      subst hbest
      have hentries : entries ≠ [] := by
        rintro rfl
        simp at hgt
      obtain ⟨hget, hgreatest⟩ := ih hentries _ rfl
      have hlt := (List.getElem?_eq_some_iff.mp hget).1
      refine ⟨by rw [List.getElem?_append_left hlt, hget], fun place entry hentry => ?_⟩
      rcases of_getElem?_concat hentry with ⟨hearlier, _⟩ | ⟨rfl, rfl⟩
      · exact hgreatest place entry hearlier
      · exact ⟨by omega, by omega⟩

/-! ## Voices by themselves -/

namespace ToneVoice

theorem stepEnvelope_keeps (voice : ToneVoice) (rate : Float) (preset : SynthPreset) :
    (voice.stepEnvelope rate preset).age = voice.age ∧
      (voice.stepEnvelope rate preset).frequency = voice.frequency := by
  unfold stepEnvelope
  split <;> exact ⟨rfl, rfl⟩

theorem stepOscillators_keeps (voice : ToneVoice) (rate : Float) (preset : SynthPreset) :
    let stepped := (voice.stepOscillators rate preset).2
    stepped.active = voice.active ∧ stepped.age = voice.age ∧
      stepped.frequency = voice.frequency := by
  unfold stepOscillators
  dsimp only
  split <;> exact ⟨rfl, rfl, rfl⟩

/-- A voice that goes on with its tone counts the frame. -/
theorem of_active_tick {voice : ToneVoice} {rate : Float} {preset : SynthPreset}
    (h : (voice.tick rate preset).2.active = true) :
    voice.active = true ∧ (voice.tick rate preset).2.age = voice.age + 1 ∧
      (voice.tick rate preset).2.frequency = voice.frequency := by
  unfold tick at h ⊢
  split at h
  · next hidle => exact absurd h (by simpa using hidle)
  · next hactive =>
    rw [if_neg hactive]
    dsimp only
    generalize haged : { voice with age := voice.age + 1 } = aged
    obtain ⟨hage, hfrequency⟩ := stepEnvelope_keeps aged rate preset
    obtain ⟨_, hage', hfrequency'⟩ :=
      stepOscillators_keeps (aged.stepEnvelope rate preset) rate preset
    rw [hage', hage, hfrequency', hfrequency, ← haged]
    exact ⟨by simpa using hactive, rfl, rfl⟩

end ToneVoice

namespace MonoSynth

/-! ## The voice that is taken -/

/-- While a voice is free, a free one is taken. -/
theorem getElem?_freeVoice {voices : List ToneVoice}
    (hfree : ∃ voice ∈ voices, voice.active = false) :
    ∃ voice, voices[freeVoice voices]? = some voice ∧ voice.active = false := by
  unfold freeVoice
  split
  · next place hplace =>
    obtain ⟨hlt, hidle, _⟩ := List.findIdx?_eq_some_iff_getElem.mp hplace
    exact ⟨_, List.getElem?_eq_getElem hlt, by simpa using hidle⟩
  · next hbusy =>
    obtain ⟨voice, hvoice, hactive⟩ := hfree
    have hother := List.findIdx?_eq_none_iff.mp hbusy voice hvoice
    simp [hactive] at hother

/-- When no voice is free, one of the greatest age is taken, and of those the last. -/
theorem freeVoice_of_active {voices : List ToneVoice} (hne : voices ≠ [])
    (hactive : ∀ voice ∈ voices, voice.active = true) :
    ∃ oldest, voices[freeVoice voices]? = some oldest ∧
      ∀ place voice, voices[place]? = some voice →
        voice.age ≤ oldest.age ∧ (voice.age = oldest.age → place ≤ freeVoice voices) := by
  have hbusy : voices.findIdx? (fun voice => !voice.active) = none :=
    List.findIdx?_eq_none_iff.mpr fun voice hvoice => by simp [hactive voice hvoice]
  have htaken : freeVoice voices = lastMaxIndex (voices.map (·.age)) := by
    unfold freeVoice
    rw [hbusy]
  obtain ⟨greatest, hget, hgreatest⟩ := lastMaxIndex_spec (mt List.map_eq_nil_iff.mp hne)
  rw [← htaken, List.getElem?_map, Option.map_eq_some_iff] at hget
  obtain ⟨oldest, holdest, rfl⟩ := hget
  refine ⟨oldest, holdest, fun place voice hvoice => ?_⟩
  rw [htaken]
  exact hgreatest place voice.age (by rw [List.getElem?_map, hvoice, Option.map_some])

/-- A tone changes no voice but the one that it takes. -/
theorem getElem?_noteOn (voices : List ToneVoice) (tone : Float × Nat) (place : Nat) :
    (noteOn voices tone)[place]? =
      if freeVoice voices = place then voices[place]?.map (·.start tone.1 tone.2)
      else voices[place]? := by
  unfold noteOn
  rw [List.getElem?_modify]
  split <;> simp

/-! ## What a synth has done -/

/-- A tone that a synth starts or a frame that it renders. -/
abbrev Event := Moment (List ToneVoice × Lowpass) (Float × Nat)

/-- Whether a tone is started in a voice. -/
def takes (place : Nat) : Event → Bool
  | .start (voices, _) _ => freeVoice voices = place
  | .frame _ => false

/-- How many moments ago a tone was last started in a voice. -/
def begun (past : List Event) (place : Nat) : Nat :=
  past.findIdx (takes place)

/-- How many frames have been rendered since. -/
def framesSince (past : List Event) (place : Nat) : Nat :=
  (past.take (begun past place)).countP (·.isFrame)

theorem begun_cons (event : Event) (past : List Event) (place : Nat) :
    begun (event :: past) place = if takes place event then 0 else begun past place + 1 := by
  unfold begun
  rw [List.findIdx_cons]
  cases takes place event <;> rfl

theorem framesSince_cons (event : Event) (past : List Event) (place : Nat) :
    framesSince (event :: past) place =
      if takes place event then 0
      else framesSince past place + if event.isFrame then 1 else 0 := by
  unfold framesSince
  rw [begun_cons]
  split
  · rfl
  · rw [List.take_succ_cons, List.countP_cons]

/-- More frames have been rendered since an earlier moment. -/
theorem framesSince_mono {past : List Event} {a b : Nat} (h : begun past a ≤ begun past b) :
    framesSince past a ≤ framesSince past b :=
  (List.take_prefix_take_left h).sublist.countP_le

/-! ## What the voices tell of it -/

/-- Each voice that sounds plays the tone that was last started in it, and its age is the number of
frames rendered since. -/
structure Told (past : List Event) (voices : List ToneVoice) : Prop where
  length_eq : voices.length = voiceCount
  started : ∀ place voice, voices[place]? = some voice → voice.active = true →
    ∃ state tone, past[begun past place]? = some (.start state tone) ∧
      freeVoice state.1 = place ∧ voice.frequency = tone.1
  age_eq : ∀ place voice, voices[place]? = some voice → voice.active = true →
    voice.age = framesSince past place

variable {past : List Event} {voices : List ToneVoice}

/-- A tone is started. -/
theorem Told.start (h : Told past voices) (filter : Lowpass) (tone : Float × Nat) :
    Told (.start (voices, filter) tone :: past) (noteOn voices tone) := by
  refine ⟨?_, ?_, ?_⟩
  · unfold noteOn
    rw [List.length_modify, h.length_eq]
  · intro place voice hvoice hactive
    rw [getElem?_noteOn] at hvoice
    rw [begun_cons]
    by_cases hplace : freeVoice voices = place
    · rw [if_pos hplace, Option.map_eq_some_iff] at hvoice
      obtain ⟨before, _, rfl⟩ := hvoice
      exact ⟨(voices, filter), tone, by simp [takes, hplace], hplace, rfl⟩
    · rw [if_neg hplace] at hvoice
      obtain ⟨state, other, hget, htakes, hfrequency⟩ := h.started place voice hvoice hactive
      exact ⟨state, other, by simpa [takes, hplace] using hget, htakes, hfrequency⟩
  · intro place voice hvoice hactive
    rw [getElem?_noteOn] at hvoice
    rw [framesSince_cons]
    by_cases hplace : freeVoice voices = place
    · rw [if_pos hplace, Option.map_eq_some_iff] at hvoice
      obtain ⟨before, _, rfl⟩ := hvoice
      simp [takes, hplace, ToneVoice.start, ToneVoice.idle]
    · rw [if_neg hplace] at hvoice
      simp [takes, hplace, Moment.isFrame, h.age_eq place voice hvoice hactive]

theorem tickVoices_voices (rate : Float) (preset : SynthPreset) (sum : Float)
    (voices : List ToneVoice) :
    (tickVoices rate preset sum voices).2 = voices.map fun voice => (voice.tick rate preset).2 := by
  induction voices generalizing sum with
  | nil => rfl
  | cons voice voices ih => exact congrArg (_ :: ·) (ih _)

/-- A frame is rendered. -/
theorem Told.frame (h : Told past voices) (filter : Lowpass) (rate : Float)
    (preset : SynthPreset) (sum : Float) :
    Told (.frame (voices, filter) :: past) (tickVoices rate preset sum voices).2 := by
  rw [tickVoices_voices]
  have hticked : ∀ (place : Nat) (voice : ToneVoice),
      (voices.map fun voice => (voice.tick rate preset).2)[place]? = some voice →
        voice.active = true → ∃ before, voices[place]? = some before ∧ before.active = true ∧
          voice.age = before.age + 1 ∧ voice.frequency = before.frequency := by
    intro place voice hvoice hactive
    rw [List.getElem?_map, Option.map_eq_some_iff] at hvoice
    obtain ⟨before, hbefore, rfl⟩ := hvoice
    exact ⟨before, hbefore, ToneVoice.of_active_tick hactive⟩
  refine ⟨by rw [List.length_map, h.length_eq], ?_, ?_⟩
  · intro place voice hvoice hactive
    obtain ⟨before, hbefore, hsounds, _, hfrequency⟩ := hticked place voice hvoice hactive
    obtain ⟨state, tone, hget, htakes, hstarted⟩ := h.started place before hbefore hsounds
    rw [begun_cons]
    exact ⟨state, tone, hget, htakes, hfrequency.trans hstarted⟩
  · intro place voice hvoice hactive
    obtain ⟨before, hbefore, hsounds, hage, _⟩ := hticked place voice hvoice hactive
    rw [framesSince_cons, hage, h.age_eq place before hbefore hsounds]
    rfl

/-- Silent voices tell nothing. -/
theorem told_of_silent (hlength : voices.length = voiceCount)
    (hsilent : ∀ voice ∈ voices, voice.active = false) : Told past voices where
  length_eq := hlength
  started place voice hvoice hactive := by
    simp [hsilent voice (List.mem_of_getElem? hvoice)] at hactive
  age_eq place voice hvoice hactive := by
    simp [hsilent voice (List.mem_of_getElem? hvoice)] at hactive

/-! ## Runs -/

/-- What a synth is asked to do. -/
inductive Call where
  | queue (note : Note) (offset : Nat)
  | process (frames : Nat)
  | allOff
  | setRate (rate : Float32)

/-- The synth after a call. -/
def apply (synth : MonoSynth) : Call → MonoSynth
  | .queue note offset => synth.queue note offset
  | .process frames => (synth.process frames).2
  | .allOff => synth.allOff
  | .setRate rate => synth.setRate rate

/-- The synth after a list of calls. -/
def after (synth : MonoSynth) (calls : List Call) : MonoSynth :=
  calls.foldl apply synth

/-- What a synth does in a call, the latest first. -/
def moments (synth : MonoSynth) : Call → List Event
  | .process frames =>
    (player synth.rate.toFloat synth.preset).moments frames synth.waiting
      (synth.voices, synth.filter)
  | _ => []

/-- What a synth does in a list of calls, the latest first. -/
def history (synth : MonoSynth) : List Call → List Event
  | [] => []
  | call :: rest => (synth.apply call).history rest ++ synth.moments call

/-- The voices tell now what was done before, and so they did at every moment of it. -/
structure Kept (past : List Event) (voices : List ToneVoice) : Prop where
  now : Told past voices
  before : ∀ event earlier, event :: earlier <:+ past → Told earlier event.before.1

theorem Kept.cons {event : Event} {voices' : List ToneVoice} (h : Kept past voices)
    (hevent : event.before.1 = voices) (hnow : Told (event :: past) voices') :
    Kept (event :: past) voices' where
  now := hnow
  before event' earlier hsuffix := by
    rcases List.suffix_cons_iff.mp hsuffix with heq | hearlier
    · obtain ⟨rfl, rfl⟩ := List.cons.inj heq
      rw [hevent]
      exact h.now
    · exact h.before event' earlier hearlier

theorem Kept.process {synth : MonoSynth} (h : Kept past synth.voices) (frames : Nat) :
    Kept (synth.moments (.process frames) ++ past) (synth.process frames).2.voices := by
  let watched := (player synth.rate.toFloat synth.preset).watched
  let Past (state : (List ToneVoice × Lowpass) × List Event) : Prop :=
    Kept (state.2 ++ past) state.1.1
  have hpast : Past ((synth.voices, synth.filter), []) := h
  have hplayed :
      Past (watched.renderBlock frames synth.waiting ((synth.voices, synth.filter), [])).state := by
    refine Player.renderBlock_induction ?_ ?_ frames synth.waiting hpast
    · exact fun state tone hstate => hstate.cons rfl (hstate.now.start state.1.2 tone)
    · exact fun state hstate => hstate.cons rfl (hstate.now.frame state.1.2 _ _ _)
  have hwatched := (player synth.rate.toFloat synth.preset).renderBlock_watched frames
    synth.waiting (synth.voices, synth.filter)
  unfold MonoSynth.process
  rw [hwatched]
  exact hplayed

theorem Kept.apply {synth : MonoSynth} (h : Kept past synth.voices) (call : Call) :
    Kept (synth.moments call ++ past) (synth.apply call).voices := by
  cases call with
  | queue note offset =>
    show Kept past (synth.queue note offset).voices
    unfold queue
    split <;> exact h
  | process frames => exact h.process frames
  | allOff =>
    refine ⟨told_of_silent ((List.length_map _).trans h.now.length_eq) ?_, h.before⟩
    simp [MonoSynth.apply, allOff]
  | setRate rate => exact h

theorem Kept.after {synth : MonoSynth} (h : Kept past synth.voices) (calls : List Call) :
    Kept (synth.history calls ++ past) (synth.after calls).voices := by
  induction calls generalizing synth past with
  | nil => exact h
  | cons call rest ih =>
    rw [MonoSynth.history, List.append_assoc]
    exact ih (h.apply call)

theorem kept_new (preset : SynthPreset) (rate : Float32) : Kept [] (new preset rate).voices where
  now := told_of_silent rfl (by simp [new, ToneVoice.idle])
  before event earlier hsuffix := by simp at hsuffix

/-! ## Which tone makes way -/

/-- A voice in which a tone was started earlier than in all others. -/
structure IsFirst (past : List Event) (first : Nat) : Prop where
  lt_voiceCount : first < voiceCount
  begun_lt : ∀ other < voiceCount, other ≠ first → begun past other < begun past first

theorem IsFirst.begun_le {first : Nat} (h : IsFirst past first) {other : Nat}
    (hother : other < voiceCount) : begun past other ≤ begun past first := by
  by_cases heq : other = first
  · rw [heq]
  · exact (h.begun_lt other hother heq).le

/-- Two voices in which tones were started in one frame. -/
def Together (past : List Event) (a b : Nat) : Prop :=
  framesSince past a = framesSince past b

theorem Told.exists_voice (h : Told past voices) {place : Nat} (hplace : place < voiceCount) :
    ∃ voice, voices[place]? = some voice :=
  ⟨_, List.getElem?_eq_getElem (h.length_eq.symm ▸ hplace)⟩

/-- Where all voices sound, one of them was started first. -/
theorem Told.exists_isFirst (h : Told past voices)
    (hactive : ∀ voice ∈ voices, voice.active = true) : ∃ first, IsFirst past first := by
  obtain ⟨first, hfirst, hmax⟩ := Finset.exists_max_image (Finset.range voiceCount) (begun past)
    ⟨0, by decide⟩
  have hlt := Finset.mem_range.mp hfirst
  refine ⟨first, hlt, fun other hother hne => ?_⟩
  refine lt_of_le_of_ne (hmax other (Finset.mem_range.mpr hother)) fun heq => hne ?_
  -- one moment starts a tone in one voice only
  obtain ⟨voice, hvoice⟩ := h.exists_voice hlt
  obtain ⟨voice', hvoice'⟩ := h.exists_voice hother
  obtain ⟨state, tone, hget, htakes, _⟩ :=
    h.started first voice hvoice (hactive voice (List.mem_of_getElem? hvoice))
  obtain ⟨state', tone', hget', htakes', _⟩ :=
    h.started other voice' hvoice' (hactive voice' (List.mem_of_getElem? hvoice'))
  rw [heq, hget, Option.some.injEq, Moment.start.injEq] at hget'
  rw [← htakes, ← htakes', hget'.1]

/-- Of the voices whose tones were started in the frame of the first, the last is taken. -/
theorem Told.freeVoice_last (h : Told past voices)
    (hactive : ∀ voice ∈ voices, voice.active = true) {first : Nat} (hfirst : IsFirst past first) :
    freeVoice voices < voiceCount ∧ Together past first (freeVoice voices) ∧
      ∀ other < voiceCount, Together past first other → other ≤ freeVoice voices := by
  have hne : voices ≠ [] := List.ne_nil_of_length_eq_add_one h.length_eq
  obtain ⟨oldest, holdest, hgreatest⟩ := freeVoice_of_active hne hactive
  have hlt : freeVoice voices < voiceCount :=
    h.length_eq ▸ (List.getElem?_eq_some_iff.mp holdest).1
  have hage : ∀ place voice, voices[place]? = some voice → voice.age = framesSince past place :=
    fun place voice hvoice =>
      h.age_eq place voice hvoice (hactive voice (List.mem_of_getElem? hvoice))
  have htogether : Together past first (freeVoice voices) := by
    obtain ⟨voice, hvoice⟩ := h.exists_voice hfirst.lt_voiceCount
    have hle := (hgreatest first voice hvoice).1
    rw [hage first voice hvoice, hage _ oldest holdest] at hle
    exact le_antisymm hle (framesSince_mono (hfirst.begun_le hlt))
  refine ⟨hlt, htogether, fun other hother hsame => ?_⟩
  obtain ⟨voice, hvoice⟩ := h.exists_voice hother
  refine (hgreatest other voice hvoice).2 ?_
  rw [hage other voice hvoice, hage _ oldest holdest]
  exact hsame.symm.trans htogether

/-- Whenever a tone is started, it takes one voice and leaves the others alone.  While a voice is
free, it takes a free one.  When all sound, it takes one whose tone was started in the frame of the
first, and of those the last; it is the voice that was started first unless another that was started
in the same frame stands behind that. -/
theorem tone_takes_voice (preset : SynthPreset) (rate : Float32) (calls : List Call)
    {voices : List ToneVoice} {filter : Lowpass} {tone : Float × Nat} {past : List Event}
    (h : .start (voices, filter) tone :: past <:+ (new preset rate).history calls) :
    let taken := freeVoice voices
    Told past voices ∧
      (∀ place, (noteOn voices tone)[place]? =
        if taken = place then voices[place]?.map (·.start tone.1 tone.2) else voices[place]?) ∧
      ((∃ voice ∈ voices, voice.active = false) →
        ∃ voice, voices[taken]? = some voice ∧ voice.active = false) ∧
      ((∀ voice ∈ voices, voice.active = true) →
        ∃ first, IsFirst past first ∧
          taken < voiceCount ∧ Together past first taken ∧
          (∀ other < voiceCount, Together past first other → other ≤ taken) ∧
          (taken = first ↔ ∀ other < voiceCount, Together past first other → other ≤ first)) := by
  intro taken
  have hkept := (kept_new preset rate).after calls
  rw [List.append_nil] at hkept
  have htold : Told past voices := hkept.before _ _ h
  refine ⟨htold, getElem?_noteOn voices tone, getElem?_freeVoice, fun hactive => ?_⟩
  obtain ⟨first, hfirst⟩ := htold.exists_isFirst hactive
  obtain ⟨hlt, htogether, hlast⟩ := htold.freeVoice_last hactive hfirst
  refine ⟨first, hfirst, hlt, htogether, hlast, ?_, fun hnone => ?_⟩
  · intro heq
    exact heq ▸ hlast
  · exact le_antisymm (hnone taken hlt htogether) (hlast first hfirst.lt_voiceCount rfl)

/-- Five tones for one frame. -/
def fiveTogether : List Call :=
  [.queue (.tone 110 4410) 0, .queue (.tone 220 4410) 0, .queue (.tone 330 4410) 0,
    .queue (.tone 440 4410) 0, .queue (.tone 550 4410) 0, .process 1]

/-- The voices of a new synth in which tones have been started. -/
def startedWith (frequencies : List Float) : List ToneVoice :=
  frequencies.foldl (fun voices frequency => noteOn voices (frequency, 4410))
    (new .bass 44100).voices

/-- The first four of the five tones, the latest first. -/
def fourTogether : List Event :=
  let filter := (new .bass 44100).filter
  [.start (startedWith [110, 220, 330], filter) (440, 4410),
    .start (startedWith [110, 220], filter) (330, 4410),
    .start (startedWith [110], filter) (220, 4410), .start (startedWith [], filter) (110, 4410)]

/-- The fifth tone is started when the first four have been, and after nothing else. -/
theorem suffix_fiveTogether :
    let filter := (new .bass 44100).filter
    .start (startedWith [110, 220, 330, 440], filter) (550, 4410) :: fourTogether <:+
      (new .bass 44100).history fiveTogether := by
  intro filter
  simp only [history, fiveTogether, moments, List.append_nil, List.nil_append]
  unfold Player.moments Player.renderBlock Player.inOrder
  rw [List.mergeSort_of_pairwise (by decide)]
  exact List.suffix_cons _ _

/-- Of the four voices, the one at place 0 was started first. -/
theorem isFirst_fourTogether : IsFirst fourTogether 0 := ⟨by decide, by decide⟩

/-- The fifth tone cuts off the fourth, which has just been started, while the first still
sounds. -/
theorem fifth_tone_cuts_off_fourth :
    let filter := (new .bass 44100).filter
    let voices := startedWith [110, 220, 330, 440]
    .start (voices, filter) (550, 4410) :: fourTogether <:+
        (new .bass 44100).history fiveTogether ∧
      (∀ voice ∈ voices, voice.active = true) ∧
      IsFirst fourTogether 0 ∧ begun fourTogether 3 = 0 ∧ freeVoice voices = 3 ∧
      (noteOn voices (550, 4410)).map (·.frequency) = [110, 220, 330, 550] :=
  ⟨suffix_fiveTogether, by decide, isFirst_fourTogether, by decide, by decide, rfl⟩

/-- When the fifth tone is started, all four voices sound and tell of their tones; one was started
first, and it is the voice that is taken if and only if none that was started in the same frame
stands behind it. -/
theorem tone_takes_voice_fiveTogether :
    let voices := startedWith [110, 220, 330, 440]
    Told fourTogether voices ∧ (∀ voice ∈ voices, voice.active = true) ∧
      ∃ first, IsFirst fourTogether first ∧
        (freeVoice voices = first ↔
          ∀ other < voiceCount, Together fourTogether first other → other ≤ first) := by
  intro voices
  have hactive : ∀ voice ∈ voices, voice.active = true := by decide
  obtain ⟨htold, _, _, hall⟩ := tone_takes_voice .bass 44100 fiveTogether suffix_fiveTogether
  obtain ⟨first, hfirst, _, _, _, hiff⟩ := hall hactive
  exact ⟨htold, hactive, first, hfirst, hiff⟩

end MonoSynth

end Groovebox
