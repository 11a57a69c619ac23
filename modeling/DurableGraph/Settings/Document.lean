import DurableGraph.Settings.Basic
import DurableGraph.Settings.Text

/-!
# Settings documents

A settings document is a TOML document without tables: each line is blank, a comment, or a
key with its value.  Every key must be one of the four settings, with a value of its kind, and
must not come twice.

    Settings.parse ""  =  .ok Settings.standard
-/

namespace DurableGraph

namespace Toml

/-! ## Lines -/

/-- The characters behind the end of a line, where only blanks and a comment are left of it. -/
def endOfLine (cs : List Char) : Option (List Char) :=
  let afterComment :=
    match skipBlanks cs with
    | '#' :: rest => rest.dropWhile isPlain
    | rest => rest
  match afterComment with
  | [] => some []
  | rest => newline? rest

/-- A key with its value, up to the end of the line. -/
def readEntry (cs : List Char) : Option ((String × Scalar) × List Char) := do
  let (key, rest) ← readKey (skipBlanks cs)
  match skipBlanks rest with
  | '=' :: rest =>
    let (value, rest) ← readScalar (skipBlanks rest)
    let rest ← endOfLine rest
    some ((key, value), rest)
  | _ => none

/-- A line, with the entry that it holds if it holds one. -/
def readLine (cs : List Char) : Option (Option (String × Scalar) × List Char) :=
  match endOfLine cs with
  | some rest => some (none, rest)
  | none => (readEntry cs).map fun (entry, rest) => (some entry, rest)

/-! ## Lemmas -/

theorem endOfLine_le {cs rest : List Char} (h : endOfLine cs = some rest) :
    rest.length ≤ cs.length := by
  have hb := length_dropWhile_le isBlank cs
  unfold endOfLine at h
  simp only at h
  split at h
  · simp_all
  · have := newline?_lt h
    split at this
    · rename_i tail heq
      have hp := length_dropWhile_le isPlain tail
      have := congrArg List.length heq
      unfold skipBlanks at *
      simp only [List.length_cons] at *
      omega
    · unfold skipBlanks at *
      omega

theorem endOfLine_lt {c : Char} {cs rest : List Char} (h : endOfLine (c :: cs) = some rest) :
    rest.length < (c :: cs).length := by
  have hb := length_dropWhile_le isBlank (c :: cs)
  unfold endOfLine at h
  simp only at h
  split at h
  · simp_all
  · have := newline?_lt h
    split at this
    · rename_i tail heq
      have hp := length_dropWhile_le isPlain tail
      have := congrArg List.length heq
      unfold skipBlanks at *
      simp only [List.length_cons] at *
      omega
    · unfold skipBlanks at *
      omega

theorem readEntry_lt {cs rest : List Char} {entry : String × Scalar}
    (h : readEntry cs = some (entry, rest)) : rest.length < cs.length := by
  have hb := length_dropWhile_le isBlank cs
  simp only [readEntry, bind, Option.bind] at h
  split at h
  · simp at h
  · rename_i pair hk
    obtain ⟨key, afterKey⟩ := pair
    have h1 := readKey_lt hk
    have h2 := length_dropWhile_le isBlank afterKey
    simp only at h
    split at h
    · rename_i tail heq
      have h3 := congrArg List.length heq
      have h4 := length_dropWhile_le isBlank tail
      split at h
      · simp at h
      · rename_i pair hv
        obtain ⟨value, afterValue⟩ := pair
        have h5 := readScalar_lt hv
        simp only at h
        split at h
        · simp at h
        · rename_i last he
          have h6 := endOfLine_le he
          simp only [Option.some.injEq, Prod.mk.injEq] at h
          obtain ⟨-, rfl⟩ := h
          unfold skipBlanks at *
          simp only [List.length_cons] at *
          omega
    · simp at h

/-- Every line takes at least one character. -/
theorem readLine_lt {c : Char} {cs rest : List Char} {entry : Option (String × Scalar)}
    (h : readLine (c :: cs) = some (entry, rest)) : rest.length < (c :: cs).length := by
  unfold readLine at h
  split at h
  · rename_i he
    simp only [Option.some.injEq, Prod.mk.injEq] at h
    exact h.2 ▸ endOfLine_lt he
  · obtain ⟨⟨entry', rest'⟩, he, heq⟩ := Option.map_eq_some_iff.1 h
    have := readEntry_lt he
    simp only [Prod.mk.injEq] at heq
    exact heq.2 ▸ this

/-! ## Documents -/

/-- An entry, with the characters of the document from its line on. -/
structure Entry where
  key : String
  value : Scalar
  place : List Char

/-- The entries of a document, or the characters from the first broken line on. -/
def readEntries (cs : List Char) : Except (List Char) (List Entry) :=
  match cs with
  | [] => .ok []
  | c :: tail =>
    match _h : readLine (c :: tail) with
    | none => .error (c :: tail)
    | some (none, rest) => readEntries rest
    | some (some (key, value), rest) =>
      (readEntries rest).map fun entries => ⟨key, value, c :: tail⟩ :: entries
termination_by cs.length
decreasing_by all_goals exact readLine_lt _h

/-- The characters of a document, which a byte order mark may precede. -/
def withoutMark : List Char → List Char
  | '\uFEFF' :: rest => rest
  | cs => cs

end Toml

namespace Settings

open Toml

/-- Changes one setting to a value of its kind. -/
def set? (settings : Settings) (key : String) (value : Scalar) : Option Settings :=
  match key, value with
  | "device", .text path => some { settings with device := path }
  | "format", .flag flag => some { settings with format := flag }
  | "direct_io", .flag flag => some { settings with directIo := flag }
  | "log_level", .text level => some { settings with logLevel := level }
  | _, _ => none

/-- Applies entries in order; `seen` holds the keys that have come before. -/
def setAll (settings : Settings) (seen : List String) :
    List Entry → Except (List Char) Settings
  | [] => .ok settings
  | entry :: rest =>
    if seen.contains entry.key then .error entry.place
    else
      match settings.set? entry.key entry.value with
      | some settings => setAll settings (entry.key :: seen) rest
      | none => .error entry.place

/-- The number of the line that begins with the last characters of a document. -/
def lineNumber (document place : List Char) : Nat :=
  1 + (document.take (document.length - place.length)).count '\n'

/-- The settings that a document tells. -/
def parse (text : String) : Except SettingsError Settings :=
  let document := withoutMark text.toList
  match readEntries document >>= standard.setAll [] with
  | .ok settings => .ok settings
  | .error place => .error (.malformed (lineNumber document place))

/-- The settings in a file, given what became of reading it. -/
def ofFile (path : String) (file : Except FileFault Image) : Except SettingsError Settings :=
  match file with
  | .error fault => .error (.readFailed path fault)
  | .ok image =>
    match String.fromUTF8? image.bytes with
    | some text => parse text
    | none => .error (.readFailed path .notUtf8)

end Settings

end DurableGraph
