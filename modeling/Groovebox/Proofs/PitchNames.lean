import Groovebox.Pitch
import Mathlib

/-!
# The names of the pitches

A pitch is named by a letter from A to G in either case, at most one sign, and a digit from 0 to 8.
A text names a pitch if and only if it is the pitch's own text once its first letter is in upper
case (`ofChars?_eq_some_iff`); so what is read is displayed as it was written, but for that letter,
and is read again.

The letter b is a flat sign as well.  A reader that decodes the first character only and goes on by
the bytes of the UTF-8 text (`ofBytes?`) accepts the same texts: two texts with the same bytes are
the same, so that no byte of a longer character is taken for a sign or for a digit.
-/

namespace Groovebox

namespace Pitch

/-! ## Letters, signs and digits -/

/-- The letters that name a pitch, in either case. -/
def nameLetters : List Char := "ABCDEFGabcdefg".toList

/-- What may stand between the letter and the octave. -/
def nameSigns : List (List Char) := [[], ['#'], ['b']]

/-- The octaves that a pitch may be in. -/
def nameDigits : List Char := "012345678".toList

/-- The keys of an octave in semitones above C; black keys have no letter. -/
def octaveKeys : List Char := "C-D-EF-G-A-B".toList

/-- A letter, at most one sign and a digit, and nothing else. -/
def IsName (text : List Char) : Prop :=
  ∃ letter ∈ nameLetters, ∃ sign ∈ nameSigns, ∃ digit ∈ nameDigits,
    text = letter :: (sign ++ [digit])

/-- The digit of an octave. -/
def digitOf (octave : Fin 9) : Char :=
  Char.ofNat ('0'.toNat + octave)

theorem toChars_eq (pitch : Pitch) :
    pitch.toChars = pitch.letter.toChar :: (pitch.accidental.sign ++ [digitOf pitch.octave]) := rfl

theorem Letter.ofChar?_eq_some_iff {char : Char} {letter : Letter} :
    Letter.ofChar? char = some letter ↔ char.toUpper = letter.toChar := by
  constructor
  · intro h
    rw [ofChar?] at h
    split at h
    all_goals
      cases h
      try assumption
  · intro h
    rw [ofChar?, h]
    cases letter <;> rfl

/-- The letters of pitches stay when they are put in upper case. -/
theorem Letter.toUpper_toChar (letter : Letter) : letter.toChar.toUpper = letter.toChar := by
  cases letter <;> rfl

theorem Letter.idxOf_toChar (letter : Letter) :
    (octaveKeys.idxOf letter.toChar : Int) = letter.semitone := by
  cases letter <;> rfl

/-- Only letters become letters in upper case. -/
theorem Letter.isSome_ofChar?_iff {char : Char} :
    (Letter.ofChar? char).isSome = true ↔ char ∈ nameLetters := by
  constructor
  · intro h
    obtain ⟨letter, hletter⟩ := Option.isSome_iff_exists.mp h
    have hupper := ofChar?_eq_some_iff.mp hletter
    by_cases hlower : char.isLower = true
    · have hback := Char.toLower_toUpper_eq_toLower char
      rw [hupper, Char.toLower_eq_of_not_isUpper (Char.not_isUpper_of_isLower hlower)] at hback
      rw [← hback]
      cases letter <;> decide
    · rw [Char.toUpper_eq_of_not_isLower hlower] at hupper
      rw [hupper]
      cases letter <;> decide
  · have hall : nameLetters.all (fun char => (Letter.ofChar? char).isSome) = true := by decide
    exact List.all_eq_true.mp hall char

theorem Accidental.mem_nameSigns_iff {sign : List Char} :
    sign ∈ nameSigns ↔ ∃ accidental : Accidental, accidental.sign = sign := by
  constructor
  · simp only [nameSigns, List.mem_cons, List.not_mem_nil, or_false]
    rintro (rfl | rfl | rfl)
    · exact ⟨.natural, rfl⟩
    · exact ⟨.sharp, rfl⟩
    · exact ⟨.flat, rfl⟩
  · rintro ⟨accidental, rfl⟩
    cases accidental <;> decide

theorem Accidental.shift_eq (accidental : Accidental) :
    accidental.shift = accidental.sign.count '#' - accidental.sign.count 'b' := by
  cases accidental <;> rfl

theorem mem_nameDigits_iff {digit : Char} :
    digit ∈ nameDigits ↔ ∃ octave, digitOf octave = digit := by
  have hdigits : nameDigits = (List.finRange 9).map digitOf := by decide
  simp [hdigits]

theorem toNat_digitOf : ∀ octave, (digitOf octave).toNat - '0'.toNat = octave := by
  decide

theorem octaveOfChar?_digitOf : ∀ octave, octaveOfChar? (digitOf octave) = some octave := by
  decide

theorem octaveOfChar?_eq_some_iff {char : Char} {octave : Fin 9} :
    octaveOfChar? char = some octave ↔ char = digitOf octave := by
  constructor
  · intro h
    rw [octaveOfChar?] at h
    split at h
    · next hdigit =>
      cases h
      rw [digitOf, Nat.add_sub_cancel' hdigit.1, Char.ofNat_toNat]
    · cases h
  · rintro rfl
    exact octaveOfChar?_digitOf octave

/-! ## Reading and displaying -/

/-- A text names a pitch if and only if, with its first letter in upper case, it is the pitch's own
text. -/
theorem ofChars?_eq_some_iff {chars : List Char} {pitch : Pitch} :
    ofChars? chars = some pitch ↔ chars.modifyHead Char.toUpper = pitch.toChars := by
  rw [toChars_eq]
  constructor
  · intro h
    rw [ofChars?.eq_def] at h
    split at h
    case h_4 => cases h
    all_goals
      obtain ⟨letter, hletter, h⟩ := Option.bind_eq_some_iff.mp h
      obtain ⟨octave, hoctave, h⟩ := Option.bind_eq_some_iff.mp h
      cases h
      rw [octaveOfChar?_eq_some_iff.mp hoctave, List.modifyHead_cons,
        Letter.ofChar?_eq_some_iff.mp hletter]
      rfl
  · intro h
    cases chars with
    | nil => cases h
    | cons letter rest =>
      rw [List.modifyHead_cons, List.cons.injEq] at h
      obtain ⟨hupper, rfl⟩ := h
      have hletter := Letter.ofChar?_eq_some_iff.mpr hupper
      have hoctave := octaveOfChar?_digitOf pitch.octave
      obtain ⟨pitchLetter, accidental, octave⟩ := pitch
      cases accidental <;> simp_all [Accidental.sign, ofChars?]

/-- A pitch is read back from its own text. -/
theorem ofChars?_toChars (pitch : Pitch) : ofChars? pitch.toChars = some pitch := by
  rw [ofChars?_eq_some_iff, toChars_eq, List.modifyHead_cons, Letter.toUpper_toChar]

/-- What is read is displayed with its first letter in upper case. -/
theorem toText_of_ofString? {text : String} {pitch : Pitch} (h : ofString? text = some pitch) :
    pitch.toText = String.ofList (text.toList.modifyHead Char.toUpper) := by
  rw [ofChars?_eq_some_iff.mp h, toText]

/-- What is read begins with the letter of the pitch in either case, and goes on with its sign and
its octave. -/
theorem exists_letter_of_ofString? {text : String} {pitch : Pitch}
    (h : ofString? text = some pitch) :
    ∃ letter ∈ nameLetters, letter.toUpper = pitch.letter.toChar ∧
      text.toList = letter :: (pitch.accidental.sign ++ [digitOf pitch.octave]) := by
  rw [ofString?, ofChars?_eq_some_iff, toChars_eq] at h
  cases hchars : text.toList with
  | nil => simp [hchars] at h
  | cons letter rest =>
    rw [hchars, List.modifyHead_cons, List.cons.injEq] at h
    have hletter := Letter.ofChar?_eq_some_iff.mpr h.1
    exact ⟨letter, Letter.isSome_ofChar?_iff.mp (Option.isSome_of_eq_some hletter), h.1,
      congrArg _ h.2⟩

/-- A text is read if and only if it is a name. -/
theorem isSome_ofString?_iff {text : String} :
    (ofString? text).isSome = true ↔ IsName text.toList := by
  rw [Option.isSome_iff_exists]
  constructor
  · rintro ⟨pitch, h⟩
    obtain ⟨letter, hletter, _, htext⟩ := exists_letter_of_ofString? h
    exact ⟨letter, hletter, pitch.accidental.sign, Accidental.mem_nameSigns_iff.mpr ⟨_, rfl⟩,
      digitOf pitch.octave, mem_nameDigits_iff.mpr ⟨_, rfl⟩, htext⟩
  · rintro ⟨letter, hletter, sign, hsign, digit, hdigit, htext⟩
    obtain ⟨named, hnamed⟩ := Option.isSome_iff_exists.mp (Letter.isSome_ofChar?_iff.mpr hletter)
    obtain ⟨accidental, rfl⟩ := Accidental.mem_nameSigns_iff.mp hsign
    obtain ⟨octave, rfl⟩ := mem_nameDigits_iff.mp hdigit
    refine ⟨⟨named, accidental, octave⟩, ?_⟩
    rw [ofString?, ofChars?_eq_some_iff, htext, toChars_eq, List.modifyHead_cons,
      Letter.ofChar?_eq_some_iff.mp hnamed]

/-! ## Reading by bytes -/

/-- The bytes of a text in UTF-8. -/
def bytes (text : List Char) : List UInt8 :=
  text.flatMap String.utf8EncodeChar

/-- The octave of a digit's byte. -/
def octaveOfByte? (byte : UInt8) : Option (Fin 9) :=
  let digit := byte.toNat - '0'.toNat
  if h : '0'.toNat ≤ byte.toNat ∧ digit < 9 then some ⟨digit, h.2⟩ else none

/-- The accidental and the octave that the bytes after a letter stand for. -/
def signAndOctave? : List UInt8 → Option (Accidental × Fin 9)
  | [sign, digit] =>
    if sign = '#'.toUInt8 then (octaveOfByte? digit).map (.sharp, ·)
    else if sign = 'b'.toUInt8 then (octaveOfByte? digit).map (.flat, ·)
    else none
  | [digit] => (octaveOfByte? digit).map (.natural, ·)
  | _ => none

/-- Reads a pitch token by its first character and the bytes after it. -/
def ofBytes? (token : String) : Option Pitch :=
  match token.toList with
  | [] => none
  | first :: rest => do
    let letter ← Letter.ofChar? first
    let (accidental, octave) ← signAndOctave? (bytes rest)
    return ⟨letter, accidental, octave⟩

/-- Texts with the same bytes are the same. -/
theorem bytes_inj {a b : List Char} : bytes a = bytes b ↔ a = b := by
  constructor
  · intro h
    have hencoded : a.utf8Encode = b.utf8Encode := congrArg List.toByteArray h
    rw [← String.toByteArray_ofList, ← String.toByteArray_ofList, String.toByteArray_inj] at hencoded
    have hlists := congrArg String.toList hencoded
    rwa [String.toList_ofList, String.toList_ofList] at hlists
  · exact congrArg bytes

/-- The byte of an octave's digit. -/
def byteOf (octave : Fin 9) : UInt8 :=
  UInt8.ofNat ('0'.toNat + octave)

/-- Signs and digits are one byte each. -/
theorem bytes_sign_digit (accidental : Accidental) (octave : Fin 9) :
    bytes (accidental.sign ++ [digitOf octave]) =
      accidental.sign.map Char.toUInt8 ++ [byteOf octave] := by
  cases accidental <;> revert octave <;> decide

theorem octaveOfByte?_byteOf : ∀ octave, octaveOfByte? (byteOf octave) = some octave := by
  decide

theorem octaveOfByte?_eq_some_iff {byte : UInt8} {octave : Fin 9} :
    octaveOfByte? byte = some octave ↔ byte = byteOf octave := by
  constructor
  · intro h
    rw [octaveOfByte?] at h
    split at h
    · next hdigit =>
      cases h
      rw [byteOf, Nat.add_sub_cancel' hdigit.1, UInt8.ofNat_toNat]
    · cases h
  · rintro rfl
    exact octaveOfByte?_byteOf octave

theorem signAndOctave?_eq_some_iff {text : List UInt8} {accidental : Accidental}
    {octave : Fin 9} :
    signAndOctave? text = some (accidental, octave) ↔
      text = accidental.sign.map Char.toUInt8 ++ [byteOf octave] := by
  constructor
  · intro h
    have hdigit : ∀ {read : Accidental} {digit : UInt8},
        (octaveOfByte? digit).map (read, ·) = some (accidental, octave) →
          accidental = read ∧ digit = byteOf octave := by
      intro read digit hmap
      obtain ⟨found, hfound, heq⟩ := Option.map_eq_some_iff.mp hmap
      cases heq
      exact ⟨rfl, octaveOfByte?_eq_some_iff.mp hfound⟩
    rw [signAndOctave?.eq_def] at h
    split at h
    · split at h
      · next hsign =>
        obtain ⟨rfl, rfl⟩ := hdigit h
        rw [hsign]
        rfl
      · split at h
        · next hsign =>
          obtain ⟨rfl, rfl⟩ := hdigit h
          rw [hsign]
          rfl
        · cases h
    · obtain ⟨rfl, rfl⟩ := hdigit h
      rfl
    · cases h
  · rintro rfl
    have hoctave := octaveOfByte?_byteOf octave
    have hsigns : 'b'.toUInt8 ≠ '#'.toUInt8 := by decide
    cases accidental <;> simp [Accidental.sign, signAndOctave?, hoctave, hsigns]

theorem ofBytes?_eq_some_iff {token : String} {pitch : Pitch} :
    ofBytes? token = some pitch ↔ token.toList.modifyHead Char.toUpper = pitch.toChars := by
  rw [ofBytes?, toChars_eq]
  cases token.toList with
  | nil => simp
  | cons first rest =>
    rw [List.modifyHead_cons, List.cons.injEq, ← bytes_inj, bytes_sign_digit,
      ← Letter.ofChar?_eq_some_iff, ← signAndOctave?_eq_some_iff]
    constructor
    · intro h
      obtain ⟨letter, hletter, h⟩ := Option.bind_eq_some_iff.mp h
      obtain ⟨⟨accidental, octave⟩, hend, h⟩ := Option.bind_eq_some_iff.mp h
      cases h
      exact ⟨hletter, hend⟩
    · rintro ⟨hletter, hend⟩
      exact Option.bind_eq_some_iff.mpr
        ⟨_, hletter, Option.bind_eq_some_iff.mpr ⟨_, hend, rfl⟩⟩

/-- Reading by bytes reads the same pitches. -/
theorem ofBytes?_eq_ofString? (token : String) : ofBytes? token = ofString? token :=
  Option.ext fun pitch => by
    rw [ofBytes?_eq_some_iff, ofString?, ofChars?_eq_some_iff]

/-! ## Note numbers -/

/-- Note numbers go from that of Cb0 to that of B#8. -/
theorem noteNumber_mem (pitch : Pitch) : 11 ≤ pitch.noteNumber ∧ pitch.noteNumber ≤ 120 := by
  have hletter : 0 ≤ pitch.letter.semitone ∧ pitch.letter.semitone ≤ 11 := by
    cases pitch.letter <;> decide
  have hshift : -1 ≤ pitch.accidental.shift ∧ pitch.accidental.shift ≤ 1 := by
    cases pitch.accidental <;> decide
  have hoctave := pitch.octave.isLt
  rw [noteNumber]
  omega

/-- A note number fits in one byte. -/
theorem toNat_midiNote (pitch : Pitch) : (pitch.midiNote.toNat : Int) = pitch.noteNumber := by
  have hrange := pitch.noteNumber_mem
  rw [midiNote, UInt8.ofInt, UInt8.toNat_ofNat']
  omega

/-- A text is read if and only if it is a name: a letter, at most one sign and a digit, whatever
characters it has.  The pitch that is read is displayed as the text with its first letter in upper
case and is read back from there.  Its note number is, over the integers, twelve for each octave
above −1, and the semitones of the letter and of the sign; it is from 11 to 120, so that it is not
cut off in one byte. -/
theorem ofString?_reads_names (text : String) :
    ((ofString? text).isSome = true ↔ IsName text.toList) ∧
      ofBytes? text = ofString? text ∧
      ∀ pitch, ofString? text = some pitch →
        pitch.toText = String.ofList (text.toList.modifyHead Char.toUpper) ∧
          ofString? pitch.toText = some pitch ∧
          (∃ letter ∈ nameLetters, ∃ sign ∈ nameSigns, ∃ digit ∈ nameDigits,
            text.toList = letter :: (sign ++ [digit]) ∧
              (pitch.midiNote.toNat : Int) =
                12 * ((digit.toNat - '0'.toNat : Nat) + 1) + octaveKeys.idxOf letter.toUpper +
                  (sign.count '#' - sign.count 'b')) ∧
          11 ≤ pitch.midiNote.toNat ∧ pitch.midiNote.toNat ≤ 120 := by
  refine ⟨isSome_ofString?_iff, ofBytes?_eq_ofString? text, ?_⟩
  intro pitch hpitch
  have hrange := pitch.noteNumber_mem
  rw [← toNat_midiNote] at hrange
  have htext := toText_of_ofString? hpitch
  refine ⟨htext, ?_, ?_, by omega, by omega⟩
  · rw [toText, ofString?, String.toList_ofList, ofChars?_toChars]
  · obtain ⟨letter, hletter, hupper, hchars⟩ := exists_letter_of_ofString? hpitch
    refine ⟨letter, hletter, pitch.accidental.sign, Accidental.mem_nameSigns_iff.mpr ⟨_, rfl⟩,
      digitOf pitch.octave, mem_nameDigits_iff.mpr ⟨_, rfl⟩, hchars, ?_⟩
    rw [toNat_midiNote, noteNumber, hupper, Letter.idxOf_toChar, ← Accidental.shift_eq,
      toNat_digitOf, mul_comm]

/-- The letter b is read as a letter and as a flat sign. -/
example : ofString? "bb4" = some ⟨.b, .flat, 4⟩ ∧ (⟨.b, .flat, 4⟩ : Pitch).toText = "Bb4" := by
  decide

end Pitch

end Groovebox
