import RangeLedger.Text.Hex

/-!
# String literals

Between its quotes a string is written character by character. A quote, a backslash and the control
characters are escaped; writing escapes nothing else, while reading accepts any character as four
hexadecimal digits, one beyond the basic plane as two such groups that form a surrogate pair.

## Main results

* `scan_escape`: a written string ends at its closing quote.
* `decode?_escape`: a written string reads back.
-/

namespace RangeLedger.Literal

/-- The character that a letter behind a backslash stands for. -/
def short? : Char → Option Char
  | '"' => some '"'
  | '\\' => some '\\'
  | '/' => some '/'
  | 'b' => some '\x08'
  | 'f' => some '\x0c'
  | 'n' => some '\n'
  | 'r' => some '\r'
  | 't' => some '\t'
  | _ => none

/-- The written form of a character. -/
def escapeChar (c : Char) : List Char :=
  match c with
  | '"' => ['\\', '"']
  | '\\' => ['\\', '\\']
  | '\x08' => ['\\', 'b']
  | '\x0c' => ['\\', 'f']
  | '\n' => ['\\', 'n']
  | '\r' => ['\\', 'r']
  | '\t' => ['\\', 't']
  | c => if c < ' ' then '\\' :: 'u' :: Hex.ofNat 4 c.toNat else [c]

/-- The literal of a string. -/
def escape (cs : List Char) : List Char := cs.flatMap escapeChar

/-- The literal in front of the first quote that is not escaped, and what follows that quote;
`none` if there is no such quote, or no literal in front of it. -/
def scan : List Char → Option (List Char × List Char)
  | [] => none
  | '"' :: rest => some ([], rest)
  | '\\' :: 'u' :: a :: b :: c :: d :: rest =>
    if (Hex.value? [a, b, c, d]).isSome then
      (scan rest).map fun (literal, rest) => ('\\' :: 'u' :: a :: b :: c :: d :: literal, rest)
    else none
  | '\\' :: c :: rest =>
    if (short? c).isSome then (scan rest).map fun (literal, rest) => ('\\' :: c :: literal, rest)
    else none
  | c :: rest =>
    if c < ' ' ∨ c = '\\' then none
    else (scan rest).map fun (literal, rest) => (c :: literal, rest)

/-- The code points and units of a literal: the number of each character, and the number that each
group of hexadecimal digits denotes. -/
def units? : List Char → Option (List Nat)
  | [] => some []
  | '\\' :: 'u' :: a :: b :: c :: d :: rest => do
    let unit ← Hex.value? [a, b, c, d]
    return unit :: (← units? rest)
  | '\\' :: c :: rest => do
    let short ← short? c
    return short.toNat :: (← units? rest)
  | c :: rest => do return c.toNat :: (← units? rest)

/-- The characters of a list of code points and units; `none` if half of a surrogate pair stands
alone. -/
def join? : List Nat → Option (List Char)
  | [] => some []
  | [unit] => if 0xD800 ≤ unit ∧ unit < 0xE000 then none else some [Char.ofNat unit]
  | unit :: next :: rest =>
    if 0xD800 ≤ unit ∧ unit < 0xDC00 then
      if 0xDC00 ≤ next ∧ next < 0xE000 then
        (join? rest).map (Char.ofNat (0x10000 + (unit - 0xD800) * 0x400 + (next - 0xDC00)) :: ·)
      else none
    else if 0xDC00 ≤ unit ∧ unit < 0xE000 then none
    else (join? (next :: rest)).map (Char.ofNat unit :: ·)

/-- The characters of the string that a literal denotes. -/
def decode? (literal : List Char) : Option (List Char) := (units? literal).bind join?

/-! ### Written strings -/

/-- How a character is written: alone, or escaped in one of two ways. -/
theorem escapeChar_cases (c : Char) :
    (∃ letter, escapeChar c = ['\\', letter] ∧ short? letter = some c ∧ letter ≠ 'u') ∨
      (escapeChar c = '\\' :: 'u' :: Hex.ofNat 4 c.toNat ∧ c < ' ') ∨
      (escapeChar c = [c] ∧ ¬c < ' ' ∧ c ≠ '\\' ∧ c ≠ '"') := by
  unfold escapeChar
  split
  case h_8 h₁ h₂ _ _ _ _ _ =>
    split
    case isTrue h => exact .inr (.inl ⟨rfl, h⟩)
    case isFalse h => exact .inr (.inr ⟨rfl, h, h₂, h₁⟩)
  all_goals exact .inl ⟨_, rfl, rfl, by decide⟩

/-- The four digits of a number. -/
theorem ofNat_four (n : Nat) :
    ∃ a b c d, Hex.ofNat 4 n = [a, b, c, d] ∧ Hex.value? [a, b, c, d] = some (n % 0x1_0000) := by
  refine ⟨_, _, _, _, rfl, ?_⟩
  exact Hex.value?_ofNat 4 n

/-- What stands for a character is scanned as part of the literal, and the scan goes on behind it.
-/
theorem scan_escapeChar (c : Char) (tail : List Char) :
    scan (escapeChar c ++ tail) =
      (scan tail).map fun (literal, rest) => (escapeChar c ++ literal, rest) := by
  rcases escapeChar_cases c with ⟨letter, h, hs, hu⟩ | ⟨h, -⟩ | ⟨h, hlt, hb, hq⟩
  · simp [h, scan, hs, hu]
  · obtain ⟨x, y, z, w, hxyz, hv⟩ := ofNat_four c.toNat
    simp [h, hxyz, scan, hv]
  · simp only [List.cons_append, List.nil_append, h]
    rw [scan, if_neg (by simp [hb, Char.not_lt.1 hlt])]
    all_goals simp_all

/-- A written string ends at its closing quote. -/
theorem scan_escape (cs rest : List Char) :
    scan (escape cs ++ '"' :: rest) = some (escape cs, rest) := by
  induction cs with
  | nil => simp [escape, scan]
  | cons c cs ih =>
    have : escape (c :: cs) = escapeChar c ++ escape cs := by simp [escape]
    rw [this, List.append_assoc, scan_escapeChar, ih]
    rfl

/-- What stands for a character decodes to that character. -/
theorem units?_escapeChar (c : Char) (tail : List Char) :
    units? (escapeChar c ++ tail) = (units? tail).map (c.toNat :: ·) := by
  rcases escapeChar_cases c with ⟨letter, h, hs, hu⟩ | ⟨h, hlt⟩ | ⟨h, hlt, hb, hq⟩
  · simp only [List.cons_append, List.nil_append, h]
    rw [units?]
    · rw [hs]
      cases units? tail <;> rfl
    · simp [hu]
  · obtain ⟨x, y, z, w, hxyz, hv⟩ := ofNat_four c.toNat
    have hc : c.toNat % 0x1_0000 = c.toNat := Nat.mod_eq_of_lt (by
      have : c.toNat < ' '.toNat := hlt
      exact Nat.lt_trans this (by decide))
    rw [hc] at hv
    simp only [h, hxyz, List.cons_append, List.nil_append, units?, hv]
    cases units? tail <;> rfl
  · simp only [List.cons_append, List.nil_append, h]
    rw [units?]
    · cases units? tail <;> rfl
    · simp [hb]
    · simp [hb]

/-- The units of a written string are its characters. -/
theorem units?_escape (cs : List Char) : units? (escape cs) = some (cs.map Char.toNat) := by
  induction cs with
  | nil => rfl
  | cons c cs ih =>
    have : escape (c :: cs) = escapeChar c ++ escape cs := by simp [escape]
    rw [this, units?_escapeChar, ih]
    rfl

/-- No character is half of a surrogate pair. -/
theorem not_surrogate (c : Char) : ¬(0xD800 ≤ c.toNat ∧ c.toNat < 0xE000) := by
  have := c.valid
  simp only [UInt32.isValidChar, Nat.isValidChar] at this
  change c.toNat < 0xd800 ∨ 0xdfff < c.toNat ∧ c.toNat < 0x110000 at this
  omega

/-- Characters are read back from their code points: none of these is a surrogate. -/
theorem join?_map_toNat (cs : List Char) : join? (cs.map Char.toNat) = some cs := by
  induction cs with
  | nil => rfl
  | cons c cs ih =>
    have hc := not_surrogate c
    cases cs with
    | nil => simp [join?, hc, Char.ofNat_toNat]
    | cons d cs =>
      have h₁ : ¬(0xD800 ≤ c.toNat ∧ c.toNat < 0xDC00) := by omega
      have h₂ : ¬(0xDC00 ≤ c.toNat ∧ c.toNat < 0xE000) := by omega
      simp only [List.map_cons] at ih ⊢
      rw [join?, if_neg h₁, if_neg h₂, ih, Char.ofNat_toNat]
      rfl

/-- A written string reads back. -/
@[simp] theorem decode?_escape (cs : List Char) : decode? (escape cs) = some cs := by
  simp [decode?, units?_escape, join?_map_toNat]

end RangeLedger.Literal
