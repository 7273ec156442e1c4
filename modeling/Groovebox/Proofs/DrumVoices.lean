import Groovebox.Instrument.DrumKit
import Groovebox.Proofs.Moments
import Mathlib.Data.List.Perm.Subperm

/-!
# One voice for each hit

A strike takes the voice that sounds its hit already, and silences both hats first if the hit is one
of them.  So the hits that sound afterwards are the hit itself and, of those that sounded before,
the others that it leaves alone (`sounding_strike`).  It follows that no hit ever sounds twice and
that the two hats never sound together (`Apart`), whatever is played; of the nine hits at most eight
sound at a time.  So four of the twelve voices are free, and none that sounds is ever taken for
another hit.
-/

namespace Groovebox

/-- The hits that a strike leaves sounding. -/
def DrumHit.leaves (hit other : DrumHit) : Bool :=
  other ≠ hit && !(hit.isHat && other.isHat)

/-! ## Voices by themselves -/

namespace DrumVoice

/-- A voice goes on with its hit. -/
theorem hit_sound (voice : DrumVoice) (dt white : Float) (rate : Float32) (params : DrumParams) :
    (voice.sound dt white rate params).2.hit = voice.hit := by
  have hburst : (voice.burst rate).hit = voice.hit := by
    unfold burst
    split
    · rfl
    · split <;> rfl
  unfold sound
  split <;> first | rfl | exact hburst

theorem hit_tick (voice : DrumVoice) (rate : Float32) (params : DrumParams) (noise : Noise) :
    (voice.tick rate params noise).2.1.hit = voice.hit := by
  have hend : ∀ voice : DrumVoice, voice.endSilent.hit = voice.hit := by
    intro voice
    unfold endSilent
    split <;> rfl
  unfold tick
  split
  · rfl
  · dsimp only
    rw [hend, hit_sound]

/-- A voice that is silent stays silent. -/
theorem active_of_active_tick {voice : DrumVoice} {rate : Float32} {params : DrumParams}
    {noise : Noise} (h : (voice.tick rate params noise).2.1.active = true) :
    voice.active = true := by
  unfold tick at h
  split at h
  · exact h
  · next hactive => simpa using hactive

end DrumVoice

namespace DrumKit

/-! ## The hits that sound -/

/-- The hits that sound, voice by voice. -/
def sounding (voices : List DrumVoice) : List DrumHit :=
  (voices.filter (·.active)).map (·.hit)

theorem sounding_append (a b : List DrumVoice) : sounding (a ++ b) = sounding a ++ sounding b := by
  unfold sounding
  rw [List.filter_append, List.map_append]

theorem sounding_cons (voice : DrumVoice) (voices : List DrumVoice) :
    sounding (voice :: voices) =
      if voice.active then voice.hit :: sounding voices else sounding voices := by
  unfold sounding
  rw [List.filter_cons]
  split <;> rfl

theorem length_sounding (voices : List DrumVoice) :
    (sounding voices).length = voices.countP (·.active) := by
  rw [sounding, List.length_map, List.countP_eq_length_filter]

theorem mem_sounding {voices : List DrumVoice} {hit : DrumHit} :
    hit ∈ sounding voices ↔ ∃ voice ∈ voices, voice.active = true ∧ voice.hit = hit := by
  simp [sounding, and_assoc]

/-- The voices before a place, the voice there and those after it. -/
theorem sounding_of_getElem? {voices : List DrumVoice} {place : Nat} {voice : DrumVoice}
    (hvoice : voices[place]? = some voice) :
    sounding voices =
      sounding (voices.take place) ++ sounding (voice :: voices.drop (place + 1)) := by
  obtain ⟨hlt, hget⟩ := List.getElem?_eq_some_iff.mp hvoice
  rw [← sounding_append, ← hget, ← List.drop_eq_getElem_cons hlt, List.take_append_drop]

/-- A voice that is struck sounds its hit. -/
theorem sounding_set {voices : List DrumVoice} {place : Nat} (hlt : place < voices.length)
    (hit : DrumHit) :
    sounding (voices.set place (.struck hit)) =
      sounding (voices.take place) ++ hit :: sounding (voices.drop (place + 1)) := by
  rw [List.set_eq_take_append_cons_drop, if_pos hlt, sounding_append, sounding_cons]
  rfl

/-- Voices that are silenced sound no more. -/
theorem sounding_choke (voices : List DrumVoice) (hit : DrumHit) :
    sounding (choke voices hit) =
      (sounding voices).filter fun other => !(hit.isHat && other.isHat) := by
  unfold choke
  split
  · next hhat =>
    induction voices with
    | nil => rfl
    | cons voice voices ih =>
      rw [List.map_cons, sounding_cons, sounding_cons, ih, hhat]
      by_cases hvoice : voice.hit.isHat
      · cases voice.active <;> simp [hvoice]
      · cases hactive : voice.active <;> simp [hvoice, hactive]
  · next hhat => simp [hhat]

theorem length_choke (voices : List DrumVoice) (hit : DrumHit) :
    (choke voices hit).length = voices.length := by
  unfold choke
  split
  · exact List.length_map _
  · rfl

/-! ## Voices apart -/

/-- The twelve voices of a kit, when no two of them sound one hit and at most one sounds a hat. -/
structure Apart (voices : List DrumVoice) : Prop where
  length_eq : voices.length = voiceCount
  nodup : (sounding voices).Nodup
  hats : ¬ (.hihat ∈ sounding voices ∧ .openhat ∈ sounding voices)

/-- Voices that sound fewer hits are apart as well. -/
theorem Apart.of_sublist {voices others : List DrumVoice} (h : Apart voices)
    (hlength : others.length = voices.length)
    (hsub : (sounding others).Sublist (sounding voices)) : Apart others where
  length_eq := hlength.trans h.length_eq
  nodup := h.nodup.sublist hsub
  hats hboth := h.hats ⟨hsub.subset hboth.1, hsub.subset hboth.2⟩

theorem Apart.choke {voices : List DrumVoice} (h : Apart voices) (hit : DrumHit) :
    Apart (DrumKit.choke voices hit) := by
  refine h.of_sublist (length_choke voices hit) ?_
  rw [sounding_choke]
  exact List.filter_sublist

/-- There are nine hits, and one of the hats is silent. -/
theorem Apart.countP_le {voices : List DrumVoice} (h : Apart voices) :
    voices.countP (·.active) ≤ 8 := by
  have hsilent : ∃ hat, hat ∈ DrumHit.all ∧ hat ∉ sounding voices := by
    by_cases hclosed : .hihat ∈ sounding voices
    · exact ⟨.openhat, DrumHit.mem_all _, fun hopen => h.hats ⟨hclosed, hopen⟩⟩
    · exact ⟨.hihat, DrumHit.mem_all _, hclosed⟩
  obtain ⟨hat, hmem, hnot⟩ := hsilent
  have hsub : sounding voices ⊆ DrumHit.all.erase hat := by
    intro hit hhit
    refine (List.mem_erase_of_ne ?_).mpr (DrumHit.mem_all hit)
    rintro rfl
    exact hnot hhit
  have hle := (h.nodup.subperm hsub).length_le
  rw [List.length_erase_of_mem hmem] at hle
  rw [← length_sounding]
  exact hle

/-- Four voices at least are free. -/
theorem Apart.exists_free {voices : List DrumVoice} (h : Apart voices) :
    ∃ voice ∈ voices, voice.active = false := by
  by_contra hnone
  have hall : ∀ voice ∈ voices, voice.active = true := by
    intro voice hvoice
    by_contra hactive
    exact hnone ⟨voice, hvoice, by simpa using hactive⟩
  have hcount : voices.countP (·.active) = voices.length := List.countP_eq_length.mpr hall
  have hlength : voices.length = 12 := h.length_eq
  have hle := h.countP_le
  omega

/-! ## Strikes -/

/-- While a voice is free, the voice to strike is one that sounds the hit, or else a free one. -/
theorem getElem?_voiceFor {voices : List DrumVoice}
    (hfree : ∃ voice ∈ voices, voice.active = false) (hit : DrumHit) :
    ∃ voice, voices[voiceFor voices hit]? = some voice ∧
      (voice.active = true ∧ voice.hit = hit ∨ voice.active = false ∧ hit ∉ sounding voices) := by
  unfold voiceFor
  split
  · next place hplace =>
    obtain ⟨hlt, hown, _⟩ := List.findIdx?_eq_some_iff_getElem.mp hplace
    exact ⟨_, List.getElem?_eq_getElem hlt, Or.inl (by simpa using hown)⟩
  · next hnone =>
    have hsilent : hit ∉ sounding voices := by
      rw [mem_sounding]
      rintro ⟨voice, hvoice, hactive, hhit⟩
      have hother := List.findIdx?_eq_none_iff.mp hnone voice hvoice
      simp [hactive, hhit] at hother
    split
    · next place hplace =>
      obtain ⟨hlt, hidle, _⟩ := List.findIdx?_eq_some_iff_getElem.mp hplace
      exact ⟨_, List.getElem?_eq_getElem hlt, Or.inr ⟨by simpa using hidle, hsilent⟩⟩
    · next hbusy =>
      obtain ⟨voice, hvoice, hactive⟩ := hfree
      have hother := List.findIdx?_eq_none_iff.mp hbusy voice hvoice
      simp [hactive] at hother

/-- After a strike the hit sounds, with those that sounded before and are left alone. -/
theorem Apart.sounding_strike {voices : List DrumVoice} (h : Apart voices) (hit : DrumHit) :
    (sounding (strike voices hit)).Perm (hit :: (sounding voices).filter hit.leaves) := by
  have hchoked := h.choke hit
  obtain ⟨voice, hvoice, hcase⟩ := getElem?_voiceFor hchoked.exists_free hit
  have hlt := (List.getElem?_eq_some_iff.mp hvoice).1
  have hsplit := sounding_of_getElem? hvoice
  have hleaves : (sounding voices).filter hit.leaves =
      (sounding (DrumKit.choke voices hit)).filter (· ≠ hit) := by
    rw [sounding_choke, List.filter_filter]
    rfl
  have hnodup := hchoked.nodup
  unfold strike
  dsimp only
  rw [sounding_set hlt, hleaves]
  refine List.perm_middle.trans (List.Perm.cons hit ?_)
  rw [sounding_cons] at hsplit
  rcases hcase with ⟨hactive, rfl⟩ | ⟨hactive, hsilent⟩
  · -- the voice sounded the hit already, and no other did
    rw [if_pos hactive] at hsplit
    rw [hsplit] at hnodup ⊢
    have hrest := (List.nodup_cons.mp (List.perm_middle.nodup_iff.mp hnodup)).1
    rw [List.filter_append, List.filter_cons_of_neg (by simp), ← List.filter_append,
      List.filter_eq_self.mpr]
    intro other hother
    simpa using fun heq : other = voice.hit => hrest (heq ▸ hother)
  · -- the voice was free, and the hit did not sound
    rw [if_neg (by simp [hactive])] at hsplit
    rw [List.filter_eq_self.mpr, hsplit]
    intro other hother
    simpa using fun heq : other = hit => hsilent (heq ▸ hother)

/-- A strike keeps the voices apart. -/
theorem Apart.strike {voices : List DrumVoice} (h : Apart voices) (hit : DrumHit) :
    Apart (DrumKit.strike voices hit) := by
  have hperm := h.sounding_strike hit
  refine ⟨?_, ?_, ?_⟩
  · unfold DrumKit.strike
    rw [List.length_set, length_choke, h.length_eq]
  · rw [hperm.nodup_iff, List.nodup_cons]
    exact ⟨by simp [DrumHit.leaves], h.nodup.filter _⟩
  · rw [hperm.mem_iff, hperm.mem_iff]
    -- a hat leaves no hat, and another hit leaves the hats as they were
    rintro ⟨hclosed, hopen⟩
    rcases List.mem_cons.mp hclosed with rfl | hclosed
    · simp [DrumHit.leaves, DrumHit.isHat] at hopen
    · rcases List.mem_cons.mp hopen with rfl | hopen
      · simp [DrumHit.leaves, DrumHit.isHat] at hclosed
      · exact h.hats ⟨(List.mem_filter.mp hclosed).1, (List.mem_filter.mp hopen).1⟩

/-- A strike takes a voice that sounds its hit or a free one. -/
theorem Apart.getElem?_voiceFor_choke {voices : List DrumVoice} (h : Apart voices)
    (hit : DrumHit) :
    ∃ voice, (DrumKit.choke voices hit)[voiceFor (DrumKit.choke voices hit) hit]? = some voice ∧
      (voice.active = true ∧ voice.hit = hit ∨ voice.active = false) := by
  obtain ⟨voice, hvoice, hcase⟩ := getElem?_voiceFor (h.choke hit).exists_free hit
  exact ⟨voice, hvoice, hcase.imp_right (·.1)⟩

/-- A strike leaves a voice alone that sounds another hit, unless both are hats. -/
theorem Apart.getElem?_strike {voices : List DrumVoice} (h : Apart voices) {hit : DrumHit}
    {place : Nat} {voice : DrumVoice} (hvoice : voices[place]? = some voice)
    (hactive : voice.active = true) (hleaves : hit.leaves voice.hit = true) :
    (DrumKit.strike voices hit)[place]? = some voice := by
  simp only [DrumHit.leaves, ne_eq, decide_not, Bool.and_eq_true, Bool.not_eq_eq_eq_not,
    Bool.not_true, decide_eq_false_iff_not, Bool.and_eq_false_imp] at hleaves
  obtain ⟨hother, hhats⟩ := hleaves
  have hchoked : (DrumKit.choke voices hit)[place]? = some voice := by
    unfold DrumKit.choke
    split
    · next hhat =>
      rw [List.getElem?_map, hvoice, Option.map_some, if_neg (by simp [hhats hhat])]
    · exact hvoice
  obtain ⟨struck, hstruck, hcase⟩ := h.getElem?_voiceFor_choke hit
  have hne : voiceFor (DrumKit.choke voices hit) hit ≠ place := by
    intro heq
    rw [heq, hchoked, Option.some.injEq] at hstruck
    subst hstruck
    rcases hcase with ⟨_, hown⟩ | hfree
    · exact hother hown
    · simp [hactive] at hfree
  unfold DrumKit.strike
  dsimp only
  rw [List.getElem?_set_ne hne, hchoked]

/-! ## Frames -/

theorem length_tickVoices (rate : Float32) (params : DrumParams) (sum : Float32)
    (voices : List DrumVoice) (noise : Noise) :
    (tickVoices rate params sum voices noise).2.1.length = voices.length := by
  induction voices generalizing sum noise with
  | nil => rfl
  | cons voice voices ih => exact congrArg (· + 1) (ih _ _)

/-- Voices end while they are played, and none begins. -/
theorem sounding_tickVoices_sublist (rate : Float32) (params : DrumParams) (sum : Float32)
    (voices : List DrumVoice) (noise : Noise) :
    (sounding (tickVoices rate params sum voices noise).2.1).Sublist (sounding voices) := by
  induction voices generalizing sum noise with
  | nil => exact List.Sublist.refl _
  | cons voice voices ih =>
    simp only [tickVoices]
    have hrest := ih (sum + (voice.tick rate params noise).1) (voice.tick rate params noise).2.2
    rw [sounding_cons, sounding_cons]
    split
    · next hactive =>
      rw [if_pos (DrumVoice.active_of_active_tick hactive), DrumVoice.hit_tick]
      exact hrest.cons_cons _
    · split
      · exact hrest.cons _
      · exact hrest

/-- The voices of a frame are played one after another: some first, and then the others. -/
theorem tickVoices_append (rate : Float32) (params : DrumParams) (sum : Float32)
    (a b : List DrumVoice) (noise : Noise) :
    let first := tickVoices rate params sum a noise
    let rest := tickVoices rate params first.1 b first.2.2
    tickVoices rate params sum (a ++ b) noise = (rest.1, first.2.1 ++ rest.2.1, rest.2.2) := by
  induction a generalizing sum noise with
  | nil => rfl
  | cons voice a ih =>
    simp only [List.cons_append, tickVoices]
    rw [ih]

/-- In the middle of a frame, when some voices have been played and the others not yet, they are
apart. -/
theorem Apart.tickVoices_take {voices : List DrumVoice} (h : Apart voices) (rate : Float32)
    (params : DrumParams) (noise : Noise) (count : Nat) :
    Apart ((tickVoices rate params 0 (voices.take count) noise).2.1 ++ voices.drop count) := by
  refine h.of_sublist ?_ ?_
  · rw [List.length_append, length_tickVoices, ← List.length_append, List.take_append_drop]
  · rw [sounding_append]
    conv_rhs => rw [← List.take_append_drop count voices, sounding_append]
    exact (sounding_tickVoices_sublist ..).append_right _

/-- A frame keeps the voices apart. -/
theorem Apart.frame {voices : List DrumVoice} (h : Apart voices) (rate : Float32)
    (params : DrumParams) (noise : Noise) :
    Apart ((player rate params).frame (voices, noise)).2.1 :=
  h.of_sublist (length_tickVoices ..) (sounding_tickVoices_sublist ..)

/-! ## Runs -/

/-- What a kit is asked to do.  A block is given the noise from which its voices draw. -/
inductive Call where
  | queue (note : Note) (offset : Nat)
  | process (noise : Noise) (frames : Nat)
  | allOff
  | setParams (params : DrumParams)
  | setRate (rate : Float32)

/-- The kit after a call. -/
def apply (kit : DrumKit) : Call → DrumKit
  | .queue note offset => kit.queue note offset
  | .process noise frames => (kit.process noise frames).2.1
  | .allOff => kit.allOff
  | .setParams params => { kit with params := params }
  | .setRate rate => kit.setRate rate

/-- The kit after a list of calls. -/
def after (kit : DrumKit) (calls : List Call) : DrumKit :=
  calls.foldl apply kit

/-- What happens while a kit renders a block, the latest first. -/
def moments (kit : DrumKit) (noise : Noise) (frames : Nat) :
    List (Moment (List DrumVoice × Noise) DrumHit) :=
  (player kit.rate kit.params).moments frames kit.waiting (kit.voices, noise)

theorem apart_new (rate : Float32) (params : DrumParams) : Apart (new rate params).voices := by
  have hnone : sounding (new rate params).voices = [] := rfl
  refine ⟨rfl, ?_, ?_⟩
  · rw [hnone]
    exact List.nodup_nil
  · rw [hnone]
    simp

theorem Apart.process {kit : DrumKit} (h : Apart kit.voices) (noise : Noise) (frames : Nat) :
    Apart (kit.process noise frames).2.1.voices := by
  let Kept (state : List DrumVoice × Noise) : Prop := Apart state.1
  have hkept : Kept (kit.voices, noise) := h
  refine Player.renderBlock_induction (P := Kept) ?_ ?_ frames kit.waiting hkept
  · exact fun _ hit hstate => hstate.strike hit
  · exact fun state hstate => hstate.frame kit.rate kit.params state.2

theorem Apart.apply {kit : DrumKit} (h : Apart kit.voices) (call : Call) :
    Apart (kit.apply call).voices := by
  cases call with
  | queue note offset =>
    show Apart (kit.queue note offset).voices
    unfold queue
    split <;> exact h
  | process noise frames => exact h.process noise frames
  | allOff =>
    refine h.of_sublist (List.length_map _) ?_
    have hnone : sounding (kit.apply .allOff).voices = [] := by
      simp [DrumKit.apply, allOff, sounding]
    rw [hnone]
    exact List.nil_sublist _
  | setParams params => exact h
  | setRate rate => exact h

theorem Apart.after {kit : DrumKit} (h : Apart kit.voices) (calls : List Call) :
    Apart (kit.after calls).voices := by
  induction calls generalizing kit with
  | nil => exact h
  | cons call rest ih => exact ih (h.apply call)

/-- The voices are apart at all moments of a block. -/
theorem Apart.moments {kit : DrumKit} (h : Apart kit.voices) (noise : Noise) (frames : Nat) :
    ∀ moment ∈ kit.moments noise frames, Apart moment.before.1 := by
  let Kept (state : List DrumVoice × Noise) : Prop := Apart state.1
  have hkept : Kept (kit.voices, noise) := h
  refine (player kit.rate kit.params).of_mem_moments (P := Kept) ?_ ?_ frames kit.waiting hkept
  · exact fun _ hit hstate => hstate.strike hit
  · exact fun state hstate => hstate.frame kit.rate kit.params state.2

/-- Whatever a kit is asked to do, no two of its voices ever sound one hit, and the two hats never
sound together: not between calls, not when a hit is struck within a block, and not while the voices
of a frame are played one after another.  So at most eight of the twelve voices sound at a time; a
strike takes a voice that sounds its hit or a free one; and it leaves all other hits alone, but for
the other hat. -/
theorem hits_sound_alone (rate : Float32) (params : DrumParams) (calls : List Call) :
    let kit := (new rate params).after calls
    (∀ voices, Apart voices → voices.countP (·.active) ≤ 8) ∧
      Apart kit.voices ∧ kit.activeVoices ≤ 8 ∧
      ∀ noise frames, ∀ moment ∈ kit.moments noise frames,
        match moment with
        | .start (voices, _) hit =>
          Apart voices ∧ Apart (strike voices hit) ∧
            (∃ voice, (choke voices hit)[voiceFor (choke voices hit) hit]? = some voice ∧
              (voice.active = true ∧ voice.hit = hit ∨ voice.active = false)) ∧
            ∀ (place : Nat) voice, voices[place]? = some voice → voice.active = true →
              hit.leaves voice.hit = true → (strike voices hit)[place]? = some voice
        | .frame (voices, noise) =>
          ∀ count,
            let played := (tickVoices kit.rate kit.params 0 (voices.take count) noise).2.1
            played <+: ((player kit.rate kit.params).frame (voices, noise)).2.1 ∧
              Apart (played ++ voices.drop count) := by
  intro kit
  have hkit : Apart kit.voices := (apart_new rate params).after calls
  refine ⟨fun _ => Apart.countP_le, hkit, hkit.countP_le, ?_⟩
  intro noise frames moment hmoment
  have hbefore := hkit.moments noise frames moment hmoment
  rcases moment with ⟨⟨voices, _⟩, hit⟩ | ⟨voices, noise⟩
  · refine ⟨hbefore, hbefore.strike hit, hbefore.getElem?_voiceFor_choke hit, ?_⟩
    exact fun place voice => hbefore.getElem?_strike
  · intro count played
    refine ⟨?_, hbefore.tickVoices_take kit.rate kit.params noise count⟩
    have happend := tickVoices_append kit.rate kit.params 0 (voices.take count)
      (voices.drop count) noise
    rw [List.take_append_drop] at happend
    show played <+: (tickVoices kit.rate kit.params 0 voices noise).2.1
    rw [happend]
    exact List.prefix_append _ _

/-- A kick and both hats, to be struck in one frame. -/
def hatsTogether : List Call :=
  [.queue (.hit .kick) 0, .queue (.hit .hihat) 0, .queue (.hit .openhat) 0]

/-- When the open hat is struck, the kick and the closed hat sound; the kick is left alone. -/
theorem hits_sound_alone_hatsTogether :
    let kit := (new 44100 .standard).after hatsTogether
    let voices := strike (strike kit.voices .kick) .hihat
    .start (voices, ⟨1⟩) .openhat ∈ kit.moments ⟨1⟩ 1 ∧
      sounding voices = [.kick, .hihat] ∧
      sounding (strike voices .openhat) = [.kick, .openhat] ∧
      Apart (strike voices .openhat) ∧
      (strike voices .openhat)[0]? = some (.struck .kick) := by
  intro kit voices
  have hmoment : .start (voices, ⟨1⟩) .openhat ∈ kit.moments ⟨1⟩ 1 := by
    unfold moments Player.moments Player.renderBlock Player.inOrder
    rw [List.mergeSort_of_pairwise (by decide)]
    exact List.mem_cons_of_mem _ (List.mem_cons_self ..)
  obtain ⟨_, _, _, hmoments⟩ := hits_sound_alone 44100 .standard hatsTogether
  obtain ⟨_, hapart, _, hleft⟩ := hmoments ⟨1⟩ 1 _ hmoment
  exact ⟨hmoment, rfl, rfl, hapart, hleft 0 _ rfl rfl rfl⟩

end DrumKit

end Groovebox
