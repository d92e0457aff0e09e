import ConwayTx.Json

/-!
# JSON tokens

A text is cut into brackets, separators, strings and other scalars; blanks fall away. Every token
takes at least one character (`length_next?`).
-/

namespace ConwayTx.Json

inductive Token where
  /-- A bracket or a separator. -/
  | mark (c : Char)
  | string (literal : List Char)
  /-- A number or one of the three words. -/
  | scalar (value : Json)

namespace Token

def isMark (c : Char) : Bool :=
  c = '[' || c = ']' || c = '{' || c = '}' || c = ',' || c = ':'

def isBlank (c : Char) : Bool := c = ' ' || c = '\t' || c = '\n' || c = '\r'

/-- Puts characters that were taken before in front of what was found. -/
def after (front : List Char) (found : Option (List Char × List Char)) :
    Option (List Char × List Char) :=
  found.map fun (taken, left) => (front ++ taken, left)

theorem left_of_after {front taken left : List Char} {found : Option (List Char × List Char)}
    (h : after front found = some (taken, left)) : ∃ more, found = some (more, left) := by
  obtain ⟨⟨more, rest⟩, same, equal⟩ := Option.map_eq_some_iff.1 h
  cases equal
  exact ⟨more, same⟩

/-! ### Strings -/

def isHex (c : Char) : Bool :=
  c.isDigit || ('a' ≤ c && c ≤ 'f') || ('A' ≤ c && c ≤ 'F')

def isShortEscape (c : Char) : Bool :=
  c = '"' || c = '\\' || c = '/' || c = 'b' || c = 'f' || c = 'n' || c = 'r' || c = 't'

/-- Up to the closing quote. Controls have to be escaped. -/
def stringBody? : List Char → Option (List Char × List Char)
  | [] => none
  | '"' :: rest => some ([], rest)
  | '\\' :: 'u' :: a :: b :: c :: d :: rest =>
    if [a, b, c, d].all isHex then after ['\\', 'u', a, b, c, d] (stringBody? rest) else none
  | '\\' :: e :: rest =>
    if isShortEscape e then after ['\\', e] (stringBody? rest) else none
  | c :: rest =>
    if 32 ≤ c.toNat ∧ c ≠ '\\' then after [c] (stringBody? rest) else none

/-! ### Numbers -/

def digits (cs : List Char) : List Char × List Char :=
  (cs.takeWhile Char.isDigit, cs.dropWhile Char.isDigit)

/-- At least one digit. -/
def digits? (cs : List Char) : Option (List Char × List Char) :=
  match cs with
  | c :: _ => if c.isDigit then some (digits cs) else none
  | [] => none

/-- No zero comes before another digit: a number ends after it. -/
def whole? : List Char → Option (List Char × List Char)
  | '0' :: rest => some (['0'], rest)
  | cs => digits? cs

def fraction? : List Char → Option (List Char × List Char)
  | '.' :: rest => after ['.'] (digits? rest)
  | cs => some ([], cs)

def exponentDigits? : List Char → Option (List Char × List Char)
  | '+' :: rest => after ['+'] (digits? rest)
  | '-' :: rest => after ['-'] (digits? rest)
  | cs => digits? cs

def exponent? : List Char → Option (List Char × List Char)
  | 'e' :: rest => after ['e'] (exponentDigits? rest)
  | 'E' :: rest => after ['E'] (exponentDigits? rest)
  | cs => some ([], cs)

def unsigned? (cs : List Char) : Option (List Char × List Char) := do
  let (whole, afterWhole) ← whole? cs
  let (fraction, afterFraction) ← fraction? afterWhole
  let (exponent, rest) ← exponent? afterFraction
  return (whole ++ fraction ++ exponent, rest)

def number? : List Char → Option (List Char × List Char)
  | '-' :: rest => after ['-'] (unsigned? rest)
  | cs => unsigned? cs

/-! ### Tokens -/

/-- The token that starts with this character. -/
def next? (c : Char) (rest : List Char) : Option (Token × List Char) :=
  if isMark c then some (mark c, rest)
  else if c = '"' then (stringBody? rest).map fun (literal, left) => (string literal, left)
  else
    match c, rest with
    | 'n', 'u' :: 'l' :: 'l' :: left => some (scalar .null, left)
    | 't', 'r' :: 'u' :: 'e' :: left => some (scalar (.bool true), left)
    | 'f', 'a' :: 'l' :: 's' :: 'e' :: left => some (scalar (.bool false), left)
    | c, rest => (number? (c :: rest)).map fun (literal, left) => (scalar (.number literal), left)

theorem length_stringBody? {cs body left : List Char} (h : stringBody? cs = some (body, left)) :
    left.length < cs.length := by
  fun_induction stringBody? cs generalizing body left with
  | case1 => cases h
  | case2 rest => cases h; simp
  | case3 a b c d rest _ ih =>
    obtain ⟨_, found⟩ := left_of_after h
    have := ih found
    simp only [List.length_cons]; omega
  | case4 => cases h
  | case5 e rest _ _ ih =>
    obtain ⟨_, found⟩ := left_of_after h
    have := ih found
    simp only [List.length_cons]; omega
  | case6 => cases h
  | case7 c rest _ _ _ _ ih =>
    obtain ⟨_, found⟩ := left_of_after h
    have := ih found
    simp only [List.length_cons]; omega
  | case8 => cases h

theorem length_digits? {cs ds left : List Char} (h : digits? cs = some (ds, left)) :
    left.length < cs.length := by
  cases cs with
  | nil => cases h
  | cons c rest =>
    simp only [digits?, digits] at h
    split at h
    · rename_i digit
      cases h
      rw [List.dropWhile_cons_of_pos digit]
      have := (List.dropWhile_sublist Char.isDigit (l := rest)).length_le
      simp only [List.length_cons]; omega
    · cases h

theorem length_whole? {cs ds left : List Char} (h : whole? cs = some (ds, left)) :
    left.length < cs.length := by
  unfold whole? at h
  split at h
  · cases h; simp
  · exact length_digits? h

theorem length_fraction? {cs ds left : List Char} (h : fraction? cs = some (ds, left)) :
    left.length ≤ cs.length := by
  unfold fraction? at h
  split at h
  · obtain ⟨_, found⟩ := left_of_after h
    have := length_digits? found
    simp only [List.length_cons]; omega
  · cases h; simp

theorem length_exponentDigits? {cs ds left : List Char} (h : exponentDigits? cs = some (ds, left)) :
    left.length < cs.length := by
  unfold exponentDigits? at h
  split at h
  · obtain ⟨_, found⟩ := left_of_after h
    have := length_digits? found
    simp only [List.length_cons]; omega
  · obtain ⟨_, found⟩ := left_of_after h
    have := length_digits? found
    simp only [List.length_cons]; omega
  · exact length_digits? h

theorem length_exponent? {cs ds left : List Char} (h : exponent? cs = some (ds, left)) :
    left.length ≤ cs.length := by
  unfold exponent? at h
  split at h
  · obtain ⟨_, found⟩ := left_of_after h
    have := length_exponentDigits? found
    simp only [List.length_cons]; omega
  · obtain ⟨_, found⟩ := left_of_after h
    have := length_exponentDigits? found
    simp only [List.length_cons]; omega
  · cases h; simp

theorem length_unsigned? {cs ds left : List Char} (h : unsigned? cs = some (ds, left)) :
    left.length < cs.length := by
  simp only [unsigned?, Option.bind_eq_bind, Option.bind_eq_some_iff, Option.pure_def,
    Option.some.injEq] at h
  obtain ⟨⟨w, afterWhole⟩, whole, ⟨f, afterFraction⟩, fraction, ⟨e, rest⟩, exponent, same⟩ := h
  cases same
  exact Nat.lt_of_le_of_lt (length_exponent? exponent)
    (Nat.lt_of_le_of_lt (length_fraction? fraction) (length_whole? whole))

theorem length_number? {cs ds left : List Char} (h : number? cs = some (ds, left)) :
    left.length < cs.length := by
  unfold number? at h
  split at h
  · obtain ⟨_, found⟩ := left_of_after h
    have := length_unsigned? found
    simp only [List.length_cons]; omega
  · exact length_unsigned? h

theorem length_next? {c : Char} {rest left : List Char} {t : Token}
    (h : next? c rest = some (t, left)) : left.length ≤ rest.length := by
  unfold next? at h
  split at h
  · cases h; simp
  · split at h
    · obtain ⟨⟨_, _⟩, found, same⟩ := Option.map_eq_some_iff.1 h
      cases same
      exact Nat.le_of_lt (length_stringBody? found)
    · split at h
      · cases h; simp only [List.length_cons]; omega
      · cases h; simp only [List.length_cons]; omega
      · cases h; simp only [List.length_cons]; omega
      · obtain ⟨⟨_, _⟩, found, same⟩ := Option.map_eq_some_iff.1 h
        cases same
        have := length_number? found
        simp only [List.length_cons] at this; omega

end Token

def tokens? (cs : List Char) : Option (List Token) :=
  match cs with
  | [] => some []
  | c :: rest =>
    if Token.isBlank c then tokens? rest
    else
      match _found : Token.next? c rest with
      | some (t, left) => (tokens? left).map (t :: ·)
      | none => none
termination_by cs.length
decreasing_by
  · simp
  · have := Token.length_next? _found
    simp only [List.length_cons]; omega

end ConwayTx.Json
