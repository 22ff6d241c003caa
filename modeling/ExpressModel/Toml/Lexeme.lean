import ExpressModel.Text.Number

/-! # TOML lexemes

Readers take a lexeme from the front of a text and answer it with what is left, or fail.  They
cover what stands between values (blanks, line ends and comments), the quoted texts in their four
forms, and keys.  Keys are as deep as `maxDepth` at most, as values are. -/

namespace ExpressModel.Toml

/-- Takes a lexeme from the front of a text. -/
abbrev Reader (α : Type) : Type :=
  List Char → Option (α × List Char)

/-- How many arrays and inline tables may stand within one another, and how many parts a key may
have. -/
def maxDepth : Nat :=
  79

/-! ### Between values -/

def isInlineBlank (c : Char) : Bool :=
  c == ' ' || c == '\t'

/-- May the character stand in a comment or a quoted text? -/
def isVisible (c : Char) : Bool :=
  c == '\t' || (' ' ≤ c && c != '\x7f')

/-- Leaves out the blanks at the front of a line. -/
def skipInline (cs : List Char) : List Char :=
  cs.dropWhile isInlineBlank

/-- Leaves out blanks, line ends and comments; the flag says whether a comment has been
opened. -/
def skipLines (inComment : Bool) : List Char → Option (List Char)
  | [] => some []
  | '\n' :: cs => skipLines false cs
  | '\r' :: '\n' :: cs => skipLines false cs
  | c :: cs =>
    if inComment then if isVisible c then skipLines true cs else none
    else if isInlineBlank c then skipLines false cs
    else if c == '#' then skipLines true cs
    else some (c :: cs)

/-- Does the line hold nothing more, a comment apart? -/
def atLineEnd (cs : List Char) : Bool :=
  match skipInline cs with
  | [] => true
  | '\n' :: _ => true
  | '\r' :: '\n' :: _ => true
  | c :: _ => c == '#'

/-! ### Quoted texts -/

/-- The character of a hexadecimal code point. -/
def readCodePoint? (digits : List Char) : Option Char :=
  (Text.readNat? 16 digits).bind fun n =>
    if n.isValidChar then some (Char.ofNat n) else none

/-- The character that an escape of one letter stands for. -/
def shortEscape? : Char → Option Char
  | 'b' => some '\x08'
  | 't' => some '\t'
  | 'n' => some '\n'
  | 'f' => some '\x0c'
  | 'r' => some '\r'
  | '"' => some '"'
  | '\\' => some '\\'
  | _ => none

def readEscape : Reader Char
  | 'u' :: cs => (readCodePoint? (cs.take 4)).bind fun c =>
    if cs.length < 4 then none else some (c, cs.drop 4)
  | 'U' :: cs => (readCodePoint? (cs.take 8)).bind fun c =>
    if cs.length < 8 then none else some (c, cs.drop 8)
  | c :: cs => (shortEscape? c).map fun c => (c, cs)
  | [] => none

theorem length_readEscape {cs rest : List Char} {c : Char} (h : readEscape cs = some (c, rest)) :
    rest.length < cs.length := by
  unfold readEscape at h
  split at h
  · obtain ⟨_, _, h⟩ := Option.bind_eq_some_iff.mp h
    split at h <;> simp at h
    obtain ⟨_, rfl⟩ := h
    rw [List.length_drop, List.length_cons]
    omega
  · obtain ⟨_, _, h⟩ := Option.bind_eq_some_iff.mp h
    split at h <;> simp at h
    obtain ⟨_, rfl⟩ := h
    rw [List.length_drop, List.length_cons]
    omega
  · obtain ⟨_, _, h⟩ := Option.map_eq_some_iff.mp h
    simp at h; simp [h.2]
  · simp at h

/-- The rest of a text in double quotes on one line. -/
def readBasic (cs : List Char) : Option (List Char × List Char) :=
  match cs with
  | [] => none
  | '"' :: cs => some ([], cs)
  | '\\' :: cs =>
    match _h : readEscape cs with
    | none => none
    | some (c, rest) => (readBasic rest).map fun (text, rest) => (c :: text, rest)
  | c :: cs =>
    if isVisible c then (readBasic cs).map fun (text, rest) => (c :: text, rest) else none
termination_by cs.length
decreasing_by
  · have := length_readEscape _h; simp; omega
  · simp

/-- The rest of a text in single quotes on one line. -/
def readLiteral : Reader (List Char)
  | [] => none
  | '\'' :: cs => some ([], cs)
  | c :: cs =>
    if isVisible c then (readLiteral cs).map fun (text, rest) => (c :: text, rest) else none

/-- The end of a text in threefold quotes, behind the closing quotes: up to two more quotes
before them belong to the text. -/
def closing (quote : Char) (cs : List Char) : List Char × List Char :=
  let extra := (cs.take 2).takeWhile (· == quote)
  (extra, cs.drop extra.length)

/-- Leaves out a line end directly behind opening quotes. -/
def skipFirstLineEnd : List Char → List Char
  | '\n' :: cs => cs
  | '\r' :: '\n' :: cs => cs
  | cs => cs

def skipBlankLines : List Char → List Char
  | [] => []
  | '\n' :: cs => skipBlankLines cs
  | '\r' :: '\n' :: cs => skipBlankLines cs
  | c :: cs => if isInlineBlank c then skipBlankLines cs else c :: cs

/-- Leaves out blanks and line ends behind a backslash that ends a line; fails where the line
goes on. -/
def skipContinued (cs : List Char) : Option (List Char) :=
  let rest := skipInline cs
  if skipFirstLineEnd rest = rest then none else some (skipBlankLines rest)

/-- The rest of a text in threefold double quotes, read with a bound on its length. -/
def readMultiBasic : Nat → Reader (List Char)
  | 0, _ => none
  | _ + 1, [] => none
  | bound + 1, '\\' :: cs =>
    match skipContinued cs with
    | some rest => readMultiBasic bound rest
    | none => (readEscape cs).bind fun (c, rest) =>
      (readMultiBasic bound rest).map fun (text, rest) => (c :: text, rest)
  | bound + 1, c :: cs =>
    if c == '"' && cs.take 2 == ['"', '"'] then some (closing '"' (cs.drop 2))
    else if c == '\r' && cs.head? == some '\n' then
      (readMultiBasic bound (cs.drop 1)).map fun (text, rest) => ('\n' :: text, rest)
    else if isVisible c || c == '\n' then
      (readMultiBasic bound cs).map fun (text, rest) => (c :: text, rest)
    else none

/-- The rest of a text in threefold single quotes, read with a bound on its length. -/
def readMultiLiteral : Nat → Reader (List Char)
  | 0, _ => none
  | _ + 1, [] => none
  | bound + 1, c :: cs =>
    if c == '\'' && cs.take 2 == ['\'', '\''] then some (closing '\'' (cs.drop 2))
    else if c == '\r' && cs.head? == some '\n' then
      (readMultiLiteral bound (cs.drop 1)).map fun (text, rest) => ('\n' :: text, rest)
    else if isVisible c || c == '\n' then
      (readMultiLiteral bound cs).map fun (text, rest) => (c :: text, rest)
    else none

/-- A quoted text in one of the four forms. -/
def readQuoted : Reader String
  | '"' :: '"' :: '"' :: cs =>
    (readMultiBasic (cs.length + 1) (skipFirstLineEnd cs)).map fun (text, rest) =>
      (String.ofList text, rest)
  | '\'' :: '\'' :: '\'' :: cs =>
    (readMultiLiteral (cs.length + 1) (skipFirstLineEnd cs)).map fun (text, rest) =>
      (String.ofList text, rest)
  | '"' :: cs => (readBasic cs).map fun (text, rest) => (String.ofList text, rest)
  | '\'' :: cs => (readLiteral cs).map fun (text, rest) => (String.ofList text, rest)
  | _ => none

/-! ### Keys -/

/-- May the character stand in a key without quotes? -/
def isBareKeyChar (c : Char) : Bool :=
  c.isAlphanum || c == '_' || c == '-'

/-- One key, bare or quoted on one line. -/
def readKey : Reader String
  | '"' :: cs => (readBasic cs).map fun (text, rest) => (String.ofList text, rest)
  | '\'' :: cs => (readLiteral cs).map fun (text, rest) => (String.ofList text, rest)
  | cs =>
    let key := cs.takeWhile isBareKeyChar
    if key.isEmpty then none else some (String.ofList key, cs.dropWhile isBareKeyChar)

/-- A key of parts joined by points, with blanks around, of so many parts at most. -/
def readParts : Nat → Reader (List String)
  | 0, _ => none
  | bound + 1, cs =>
    (readKey (skipInline cs)).bind fun (key, rest) =>
      match skipInline rest with
      | '.' :: rest => (readParts bound rest).map fun (keys, rest) => (key :: keys, rest)
      | rest => some ([key], rest)

/-- A key of parts joined by points, with blanks around. -/
def readPath : Reader (List String) :=
  readParts maxDepth

end ExpressModel.Toml
