/-!
# Scalars of a settings document

Keys, strings and truth values in TOML notation.  A reader takes characters and gives a value
with the characters behind it, or nothing where the notation is broken.

    readScalar cs = some (v, rest)  →  rest.length < cs.length       (readScalar_lt)
    readKey cs = some (k, rest)     →  rest.length < cs.length       (readKey_lt)
-/

namespace DurableGraph.Toml

/-- A value that a setting can have. -/
inductive Scalar where
  | text (s : String)
  | flag (b : Bool)
  deriving DecidableEq, Repr

/-! ## Characters -/

def isBlank (c : Char) : Bool := c = ' ' || c = '\t'

/-- A character that may stand in text as itself: a tab, or anything but control characters. -/
def isPlain (c : Char) : Bool := c = '\t' || (0x20 ≤ c.toNat && c.toNat ≠ 0x7f)

/-- A character of a key without quotes. -/
def isKeyChar (c : Char) : Bool := c.isAlphanum || c = '-' || c = '_'

def skipBlanks (cs : List Char) : List Char := cs.dropWhile isBlank

/-- The characters behind a line break. -/
def newline? : List Char → Option (List Char)
  | '\n' :: rest => some rest
  | '\r' :: '\n' :: rest => some rest
  | _ => none

/-- Blanks and line breaks, as far as they go. -/
def skipLines : List Char → List Char
  | '\n' :: rest => skipLines rest
  | '\r' :: '\n' :: rest => skipLines rest
  | ' ' :: rest => skipLines rest
  | '\t' :: rest => skipLines rest
  | cs => cs

def hexDigit? (c : Char) : Option Nat :=
  if '0' ≤ c ∧ c ≤ '9' then some (c.toNat - 48)
  else if 'a' ≤ c ∧ c ≤ 'f' then some (c.toNat - 87)
  else if 'A' ≤ c ∧ c ≤ 'F' then some (c.toNat - 55)
  else none

/-- The number with the given hexadecimal digits, added on to `value`. -/
def hexNumber? (value : Nat) : List Char → Option Nat
  | [] => some value
  | c :: rest => (hexDigit? c).bind fun digit => hexNumber? (16 * value + digit) rest

/-- The character with the given number, which must be a Unicode scalar value. -/
def scalarChar? (n : Nat) : Option Char := if n.isValidChar then some (Char.ofNat n) else none

/-! ## Strings on one line -/

/-- The character numbered by the next `digits` hexadecimal digits. -/
def readCodePoint (digits : Nat) (cs : List Char) : Option (Char × List Char) :=
  if cs.length < digits then none
  else
    match (hexNumber? 0 (cs.take digits)).bind scalarChar? with
    | some c => some (c, cs.drop digits)
    | none => none

/-- The character that an escape stands for, read behind its backslash. -/
def readEscape : List Char → Option (Char × List Char)
  | 'b' :: rest => some ('\x08', rest)
  | 't' :: rest => some ('\t', rest)
  | 'n' :: rest => some ('\n', rest)
  | 'f' :: rest => some ('\x0c', rest)
  | 'r' :: rest => some ('\r', rest)
  | '"' :: rest => some ('"', rest)
  | '\\' :: rest => some ('\\', rest)
  | 'u' :: rest => readCodePoint 4 rest
  | 'U' :: rest => readCodePoint 8 rest
  | _ => none

theorem readCodePoint_le {digits : Nat} {cs rest : List Char} {c : Char}
    (h : readCodePoint digits cs = some (c, rest)) : rest.length ≤ cs.length := by
  unfold readCodePoint at h
  split at h
  · simp at h
  · split at h
    · simp only [Option.some.injEq, Prod.mk.injEq] at h
      rw [← h.2, List.length_drop]; omega
    · simp at h

theorem readEscape_lt {cs rest : List Char} {c : Char} (h : readEscape cs = some (c, rest)) :
    rest.length < cs.length := by
  unfold readEscape at h
  split at h
  case h_8 | h_9 =>
    have := readCodePoint_le h
    simp only [List.length_cons]; omega
  all_goals simp_all

/-- The rest of a string in quotation marks, behind the first of them. -/
def readQuoted (cs : List Char) : Option (List Char × List Char) :=
  match cs with
  | [] => none
  | '"' :: rest => some ([], rest)
  | '\\' :: rest =>
    match _h : readEscape rest with
    | some (c, rest) => (readQuoted rest).map fun (text, rest) => (c :: text, rest)
    | none => none
  | c :: rest =>
    if isPlain c then (readQuoted rest).map fun (text, rest) => (c :: text, rest) else none
termination_by cs.length
decreasing_by
  · have := readEscape_lt _h; simp only [List.length_cons]; omega
  · simp

/-- The rest of a string in apostrophes, which knows no escapes. -/
def readLiteral : List Char → Option (List Char × List Char)
  | [] => none
  | '\'' :: rest => some ([], rest)
  | c :: rest =>
    if isPlain c then (readLiteral rest).map fun (text, rest) => (c :: text, rest) else none

/-! ## Strings over several lines -/

/-- A line break right behind the opening marks is no part of the text. -/
def dropFirstBreak (cs : List Char) : List Char := (newline? cs).getD cs

/-- What a run of quotation marks in such a string means: one or two stand for themselves, and
of three to five the last three end it. -/
def readMarks (mark : Char) (run : Nat) (rest : List Char)
    (readOn : Option (List Char × List Char)) : Option (List Char × List Char) :=
  if run < 3 then readOn.map fun (text, rest) => (List.replicate run mark ++ text, rest)
  else if run ≤ 5 then some (List.replicate (run - 3) mark, rest)
  else none

theorem newline?_lt {cs rest : List Char} (h : newline? cs = some rest) :
    rest.length < cs.length := by
  unfold newline? at h
  split at h
  · simp only [Option.some.injEq] at h
    rw [← h, List.length_cons]
    omega
  · simp only [Option.some.injEq] at h
    rw [← h, List.length_cons, List.length_cons]
    omega
  · simp at h

theorem skipLines_le (cs : List Char) : (skipLines cs).length ≤ cs.length := by
  fun_induction skipLines cs <;> simp_all <;> omega

theorem length_dropWhile_le (p : Char → Bool) (cs : List Char) :
    (cs.dropWhile p).length ≤ cs.length := (List.dropWhile_suffix p).length_le

/-- The rest of a string in three quotation marks.  A backslash at the end of a line takes
away the line break and all blanks and breaks that follow it. -/
def readQuotedLines (cs : List Char) : Option (List Char × List Char) :=
  match cs with
  | [] => none
  | '"' :: tail =>
    let run := 1 + (tail.takeWhile (· = '"')).length
    let rest := tail.dropWhile (· = '"')
    readMarks '"' run rest (if run < 3 then readQuotedLines rest else none)
  | '\\' :: tail =>
    match _h : newline? (skipBlanks tail) with
    | some rest => readQuotedLines (skipLines rest)
    | none =>
      match _h' : readEscape tail with
      | some (c, rest) => (readQuotedLines rest).map fun (text, rest) => (c :: text, rest)
      | none => none
  | c :: tail =>
    match _h : newline? (c :: tail) with
    | some rest => (readQuotedLines rest).map fun (text, rest) => ('\n' :: text, rest)
    | none =>
      if isPlain c then (readQuotedLines tail).map fun (text, rest) => (c :: text, rest) else none
termination_by cs.length
decreasing_by
  · have := length_dropWhile_le (· = '"') tail
    simp only [List.length_cons]; omega
  · have := newline?_lt _h
    have := length_dropWhile_le isBlank tail
    have := skipLines_le rest
    unfold skipBlanks at *
    simp only [List.length_cons]; omega
  · have := readEscape_lt _h'
    simp only [List.length_cons]; omega
  · exact newline?_lt _h
  · simp

/-- The rest of a string in three apostrophes, which knows no escapes. -/
def readLiteralLines (cs : List Char) : Option (List Char × List Char) :=
  match cs with
  | [] => none
  | '\'' :: tail =>
    let run := 1 + (tail.takeWhile (· = '\'')).length
    let rest := tail.dropWhile (· = '\'')
    readMarks '\'' run rest (if run < 3 then readLiteralLines rest else none)
  | c :: tail =>
    match _h : newline? (c :: tail) with
    | some rest => (readLiteralLines rest).map fun (text, rest) => ('\n' :: text, rest)
    | none =>
      if isPlain c then (readLiteralLines tail).map fun (text, rest) => (c :: text, rest) else none
termination_by cs.length
decreasing_by
  · have := length_dropWhile_le (· = '\'') tail
    simp only [List.length_cons]; omega
  · exact newline?_lt _h
  · simp

/-! ## Keys and values -/

/-- A key: characters without quotes, or a string on one line. -/
def readKey (cs : List Char) : Option (String × List Char) :=
  match cs with
  | '"' :: rest => (readQuoted rest).map fun (text, rest) => (String.ofList text, rest)
  | '\'' :: rest => (readLiteral rest).map fun (text, rest) => (String.ofList text, rest)
  | _ =>
    let key := cs.takeWhile isKeyChar
    if key.isEmpty then none else some (String.ofList key, cs.dropWhile isKeyChar)

/-- A value: one of four notations of strings, or a truth value. -/
def readScalar (cs : List Char) : Option (Scalar × List Char) :=
  let asText := Option.map fun (text, rest) => (Scalar.text (String.ofList text), rest)
  match cs with
  | '"' :: '"' :: '"' :: rest => asText (readQuotedLines (dropFirstBreak rest))
  | '"' :: rest => asText (readQuoted rest)
  | '\'' :: '\'' :: '\'' :: rest => asText (readLiteralLines (dropFirstBreak rest))
  | '\'' :: rest => asText (readLiteral rest)
  | 't' :: 'r' :: 'u' :: 'e' :: rest => some (.flag true, rest)
  | 'f' :: 'a' :: 'l' :: 's' :: 'e' :: rest => some (.flag false, rest)
  | _ => none

/-! ## Lemmas -/

theorem readQuoted_lt {cs text rest : List Char} (h : readQuoted cs = some (text, rest)) :
    rest.length < cs.length := by
  fun_induction readQuoted cs generalizing text rest with
  | case1 => simp at h
  | case2 => simp_all
  | case3 tail c tail' he ih =>
    obtain ⟨⟨text', rest'⟩, hr, heq⟩ := Option.map_eq_some_iff.1 h
    have := ih hr
    have := readEscape_lt he
    simp_all only [Prod.mk.injEq, List.length_cons]
    omega
  | case4 => simp at h
  | case5 c tail _ _ _ ih =>
    obtain ⟨⟨text', rest'⟩, hr, heq⟩ := Option.map_eq_some_iff.1 h
    have := ih hr
    simp_all only [Prod.mk.injEq, List.length_cons]
    omega
  | case6 => simp at h

theorem readLiteral_lt {cs text rest : List Char} (h : readLiteral cs = some (text, rest)) :
    rest.length < cs.length := by
  fun_induction readLiteral cs generalizing text rest with
  | case1 => simp at h
  | case2 => simp_all
  | case3 c tail _ _ ih =>
    obtain ⟨⟨text', rest'⟩, hr, heq⟩ := Option.map_eq_some_iff.1 h
    have := ih hr
    simp_all only [Prod.mk.injEq, List.length_cons]
    omega
  | case4 => simp at h

/-- Marks end at what stands behind them, or where reading on ends. -/
theorem readMarks_le {mark : Char} {run n : Nat} {tail text rest : List Char}
    {readOn : Option (List Char × List Char)}
    (h : readMarks mark run tail readOn = some (text, rest))
    (ht : tail.length ≤ n) (hr : ∀ t r, run < 3 → readOn = some (t, r) → r.length ≤ n) :
    rest.length ≤ n := by
  unfold readMarks at h
  split at h
  · obtain ⟨⟨text', rest'⟩, ho, heq⟩ := Option.map_eq_some_iff.1 h
    simp only [Prod.mk.injEq] at heq
    exact heq.2 ▸ hr _ _ (by assumption) ho
  · split at h
    · simp_all
    · simp at h

theorem readQuotedLines_lt {cs text rest : List Char}
    (h : readQuotedLines cs = some (text, rest)) : rest.length < cs.length := by
  fun_induction readQuotedLines cs generalizing text rest with
  | case1 => simp at h
  | case2 tail =>
    rename_i ih
    have hle := length_dropWhile_le (· = '"') tail
    have := readMarks_le h hle fun t r hlt hr => by
      rw [if_pos hlt] at hr
      exact Nat.le_trans (Nat.le_of_lt (ih hr)) hle
    simp only [List.length_cons]; omega
  | case3 tail tail' hn ih =>
    have := ih h
    have := newline?_lt hn
    have := length_dropWhile_le isBlank tail
    have := skipLines_le tail'
    unfold skipBlanks at *
    simp only [List.length_cons]; omega
  | case4 tail hn c tail' he ih =>
    obtain ⟨⟨text', rest'⟩, hr, heq⟩ := Option.map_eq_some_iff.1 h
    have := ih hr
    have := readEscape_lt he
    simp_all only [Prod.mk.injEq, List.length_cons]
    omega
  | case5 => simp at h
  | case6 c tail _ _ tail' hn ih =>
    obtain ⟨⟨text', rest'⟩, hr, heq⟩ := Option.map_eq_some_iff.1 h
    have := ih hr
    have := newline?_lt hn
    simp_all only [Prod.mk.injEq]
    omega
  | case7 c tail _ _ _ _ ih =>
    obtain ⟨⟨text', rest'⟩, hr, heq⟩ := Option.map_eq_some_iff.1 h
    have := ih hr
    simp_all only [Prod.mk.injEq, List.length_cons]
    omega
  | case8 => simp at h

theorem readLiteralLines_lt {cs text rest : List Char}
    (h : readLiteralLines cs = some (text, rest)) : rest.length < cs.length := by
  fun_induction readLiteralLines cs generalizing text rest with
  | case1 => simp at h
  | case2 tail =>
    rename_i ih
    have hle := length_dropWhile_le (· = '\'') tail
    have := readMarks_le h hle fun t r hlt hr => by
      rw [if_pos hlt] at hr
      exact Nat.le_trans (Nat.le_of_lt (ih hr)) hle
    simp only [List.length_cons]; omega
  | case3 c tail _ tail' hn ih =>
    obtain ⟨⟨text', rest'⟩, hr, heq⟩ := Option.map_eq_some_iff.1 h
    have := ih hr
    have := newline?_lt hn
    simp_all only [Prod.mk.injEq]
    omega
  | case4 c tail _ _ _ ih =>
    obtain ⟨⟨text', rest'⟩, hr, heq⟩ := Option.map_eq_some_iff.1 h
    have := ih hr
    simp_all only [Prod.mk.injEq, List.length_cons]
    omega
  | case5 => simp at h

theorem dropFirstBreak_le (cs : List Char) : (dropFirstBreak cs).length ≤ cs.length := by
  unfold dropFirstBreak
  cases h : newline? cs with
  | none => simp
  | some rest => have := newline?_lt h; simp only [Option.getD_some]; omega

theorem readKey_lt {cs rest : List Char} {key : String} (h : readKey cs = some (key, rest)) :
    rest.length < cs.length := by
  unfold readKey at h
  split at h
  · obtain ⟨⟨text', rest'⟩, hr, heq⟩ := Option.map_eq_some_iff.1 h
    have := readQuoted_lt hr
    simp_all only [Prod.mk.injEq, List.length_cons]; omega
  · obtain ⟨⟨text', rest'⟩, hr, heq⟩ := Option.map_eq_some_iff.1 h
    have := readLiteral_lt hr
    simp_all only [Prod.mk.injEq, List.length_cons]; omega
  · simp only at h
    split at h
    · simp at h
    · rename_i hne
      simp only [Option.some.injEq, Prod.mk.injEq] at h
      have hs := congrArg List.length (List.takeWhile_append_dropWhile (p := isKeyChar) (l := cs))
      rw [List.length_append] at hs
      have : 0 < (cs.takeWhile isKeyChar).length := by
        cases hk : cs.takeWhile isKeyChar with
        | nil => simp [hk] at hne
        | cons => simp
      rw [← h.2]; omega

theorem readScalar_lt {cs rest : List Char} {value : Scalar}
    (h : readScalar cs = some (value, rest)) : rest.length < cs.length := by
  unfold readScalar at h
  simp only at h
  split at h
  · rename_i tail
    obtain ⟨⟨text', rest'⟩, hr, heq⟩ := Option.map_eq_some_iff.1 h
    have := readQuotedLines_lt hr
    have := dropFirstBreak_le tail
    simp_all only [Prod.mk.injEq, List.length_cons]; omega
  · obtain ⟨⟨text', rest'⟩, hr, heq⟩ := Option.map_eq_some_iff.1 h
    have := readQuoted_lt hr
    simp_all only [Prod.mk.injEq, List.length_cons]; omega
  · rename_i tail
    obtain ⟨⟨text', rest'⟩, hr, heq⟩ := Option.map_eq_some_iff.1 h
    have := readLiteralLines_lt hr
    have := dropFirstBreak_le tail
    simp_all only [Prod.mk.injEq, List.length_cons]; omega
  · obtain ⟨⟨text', rest'⟩, hr, heq⟩ := Option.map_eq_some_iff.1 h
    have := readLiteral_lt hr
    simp_all only [Prod.mk.injEq, List.length_cons]; omega
  · simp_all only [Option.some.injEq, Prod.mk.injEq, List.length_cons]; omega
  · simp_all only [Option.some.injEq, Prod.mk.injEq, List.length_cons]; omega
  · simp at h

end DurableGraph.Toml
