import Mathlib.Data.List.Infix
import Mathlib.Algebra.Group.Nat.Defs
import Mathlib.Algebra.Group.Int.Defs

/-!
# Text — the standard library's text helpers

ASCII case folding, trimming, unsigned parsing, fixed-width hexadecimal and substring search,
stated on lists of characters so that they compute.
-/

namespace GatewayEdge
namespace Foundation

/-- `str::eq_ignore_ascii_case`. -/
def eqIgnoreAsciiCase (a b : String) : Bool :=
  a.toList.map Char.toLower == b.toList.map Char.toLower

/-- `char::is_whitespace` (the Unicode property `White_Space`). -/
def isWhitespace (c : Char) : Bool :=
  (9 ≤ c.toNat && c.toNat ≤ 13) || c.toNat == 32 || c.toNat == 0x85 || c.toNat == 0xA0 ||
    c.toNat == 0x1680 || (0x2000 ≤ c.toNat && c.toNat ≤ 0x200A) || c.toNat == 0x2028 ||
    c.toNat == 0x2029 || c.toNat == 0x202F || c.toNat == 0x205F || c.toNat == 0x3000

/-- `str::trim`. -/
def trim (s : String) : String :=
  String.ofList (((s.toList.dropWhile isWhitespace).reverse.dropWhile isWhitespace).reverse)

/-- `str::starts_with`. -/
def startsWith (s start : String) : Bool := start.toList.isPrefixOf s.toList

/-- `str::strip_prefix`. -/
def stripStart (start s : String) : Option String :=
  if startsWith s start then some (String.ofList (s.toList.drop start.toList.length)) else none

theorem stripStart_append (start s : String) : stripStart start (start ++ s) = some s := by
  have hstarts : startsWith (start ++ s) start = true := by
    simp [startsWith]
  simp [stripStart, hstarts]

/-- Everything before the first `sep`, and what follows it when there is one. -/
def splitFirst (sep : Char) : List Char → List Char × Option (List Char)
  | [] => ([], none)
  | c :: cs =>
    if c = sep then ([], some cs)
    else (c :: (splitFirst sep cs).1, (splitFirst sep cs).2)

/-- What stands in front of the first separator, and behind it. -/
theorem splitFirst_append {sep : Char} {xs ys : List Char} (h : sep ∉ xs) :
    splitFirst sep (xs ++ sep :: ys) = (xs, some ys) := by
  induction xs with
  | nil => simp [splitFirst]
  | cons x xs ih =>
      have hx : x ≠ sep := fun hx => h (hx ▸ List.mem_cons_self)
      have hxs : sep ∉ xs := fun hmem => h (List.mem_cons_of_mem x hmem)
      simp [splitFirst, hx, ih hxs]

/-- A text with a separator is put together again. -/
theorem splitFirst_eq_some {sep : Char} {cs inner rest : List Char}
    (h : splitFirst sep cs = (inner, some rest)) : cs = inner ++ sep :: rest := by
  induction cs generalizing inner with
  | nil => cases h
  | cons c cs ih =>
      unfold splitFirst at h
      split at h
      · rename_i hc
        cases h
        rw [hc, List.nil_append]
      · rcases Prod.mk.inj h with ⟨hinner, hrest⟩
        rw [← hinner, List.cons_append]
        exact congrArg (c :: ·) (ih (Prod.ext rfl hrest))

/-- `s.split(sep).next()`: the part of `s` before the first `sep`. -/
def beforeFirst (sep : Char) (s : String) : String := String.ofList (splitFirst sep s.toList).1

/-- `str::parse` for an unsigned integer of the given width: decimal digits with an optional
`+`, an error when empty or out of range. -/
def parseUnsigned (bits : Nat) (s : String) : Option Nat :=
  let digits := match s.toList with
    | '+' :: rest => rest
    | cs => cs
  if digits.isEmpty || !digits.all Char.isDigit then none
  else
    let n := digits.foldl (fun acc c => acc * 10 + (c.toNat - 48)) 0
    if n < 2 ^ bits then some n else none

/-- What parses fits the width. -/
theorem parseUnsigned_lt {bits : Nat} {s : String} {n : Nat} (h : parseUnsigned bits s = some n) :
    n < 2 ^ bits := by
  unfold parseUnsigned at h
  generalize (match s.toList with
    | '+' :: rest => rest
    | cs => cs) = digits at h
  dsimp only at h
  generalize digits.foldl (fun acc c => acc * 10 + (c.toNat - 48)) 0 = value at h
  cases hbad : digits.isEmpty || !digits.all Char.isDigit with
  | true => simp [hbad] at h
  | false =>
      by_cases hlt : value < 2 ^ bits
      · have hvalue : value = n := by simpa [hbad, hlt] using h
        exact hvalue ▸ hlt
      · simp [hbad, hlt] at h

/-- One lowercase hexadecimal digit. -/
def hexDigit (n : Nat) : Char := if n < 10 then Char.ofNat (48 + n) else Char.ofNat (87 + n)

/-- `{:0width x}` of a number below `16 ^ width`. -/
def toHex : Nat → Nat → List Char
  | 0, _ => []
  | width + 1, n => toHex width (n / 16) ++ [hexDigit (n % 16)]

/-- `char::to_digit(16)`. -/
def hexValue (c : Char) : Option Nat :=
  if '0' ≤ c ∧ c ≤ '9' then some (c.toNat - 48)
  else if 'a' ≤ c ∧ c ≤ 'f' then some (c.toNat - 87)
  else if 'A' ≤ c ∧ c ≤ 'F' then some (c.toNat - 55)
  else none

/-- The digits and their values, as numbers. -/
theorem hexValue_eq_some {c : Char} {n : Nat} (h : hexValue c = some n) :
    (48 ≤ c.toNat ∧ c.toNat ≤ 57 ∧ n = c.toNat - 48) ∨
      (97 ≤ c.toNat ∧ c.toNat ≤ 102 ∧ n = c.toNat - 87) ∨
      (65 ≤ c.toNat ∧ c.toNat ≤ 70 ∧ n = c.toNat - 55) := by
  have hle : ∀ d e : Char, d ≤ e ↔ d.toNat ≤ e.toNat := fun _ _ => UInt32.le_iff_toNat_le
  unfold hexValue at h
  simp only [hle] at h
  split_ifs at h with hdecimal hlower hupper
  · exact Or.inl ⟨hdecimal.1, hdecimal.2, (Option.some.inj h).symm⟩
  · exact Or.inr (Or.inl ⟨hlower.1, hlower.2, (Option.some.inj h).symm⟩)
  · exact Or.inr (Or.inr ⟨hupper.1, hupper.2, (Option.some.inj h).symm⟩)

/-- Some pattern occurs in `text`, up to ASCII case. -/
def matchesAny (patterns : List String) (text : List Char) : Bool :=
  patterns.any fun p => decide (p.toList.map Char.toLower <:+: text.map Char.toLower)

example : parseUnsigned 32 "+250" = some 250 ∧ parseUnsigned 8 "256" = none := by decide

end Foundation
end GatewayEdge
