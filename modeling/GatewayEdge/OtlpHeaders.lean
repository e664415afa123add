import GatewayEdge.Config
import GatewayEdge.Foundation.CharBoundary
import GatewayEdge.Foundation.PercentBytes

/-!
# OtlpHeaders — the exporter's credentials

The value of the `authorization` header comes percent-encoded from the environment.  The decoder steps over
the bytes but takes two digits by slicing the text, and leaves it to a number parser to tell what digits are.
It is compared with the standard decoding: a slice may hit the middle of a character, and the parser takes a
sign for a digit.
-/

namespace GatewayEdge
namespace Otlp

open Foundation
open Foundation.CharBoundary Foundation.PercentBytes

/-! ## The decoder -/

def plus : UInt8 := 0x2B

/-- `u8::from_str_radix(_, 16)`. -/
def fromStrRadix16 (text : Bytes) : Option UInt8 :=
  let digits := match text with
    | b :: b' :: rest => if b = plus then b' :: rest else text
    | _ => text
  if digits = [] then none
  else
    match digits.mapM digit with
    | none => none
    | some ds =>
      let n := ds.foldl (fun acc d => acc * 16 + d) 0
      if n < 256 then some (UInt8.ofNat n) else none

/-- The loop of `percent_decode` from byte `i` on, `none` if a slice panics. -/
def percentDecodeLoop (s : Bytes) (i : Nat) (out : Bytes) : Option Bytes :=
  if h : i < s.length then
    if s[i] = percent ∧ i + 2 < s.length then
      match slice s (i + 1) (i + 3) with
      | none => none
      | some digits =>
        match fromStrRadix16 digits with
        | some b => percentDecodeLoop s (i + 3) (out ++ [b])
        | none => percentDecodeLoop s (i + 1) (out ++ [s[i]])
    else percentDecodeLoop s (i + 1) (out ++ [s[i]])
  else some out
termination_by s.length - i

/-- The bytes that are decoded, before the conversion to a text. -/
def percentDecodeBytes (s : String) : Option Bytes := percentDecodeLoop (strBytes s) 0 []

/-- `percent_decode`. -/
def percentDecode (s : String) : Option String := (percentDecodeBytes s).map fromUtf8Lossy

/-! ## The environment -/

/-- `str::trim_end_matches('/')`. -/
def trimEndSlashes (s : String) : String :=
  String.ofList (s.toList.reverse.dropWhile (· = '/')).reverse

def endpoint (env : EnvVars) : Option String :=
  match env "OTEL_EXPORTER_OTLP_ENDPOINT" with
  | none => none
  | some base => if base = "" then none else some (trimEndSlashes base)

/-- The first entry with the key `authorization` is decoded. -/
def authEntry : List (List Char) → Option (Option String)
  | [] => some none
  | part :: parts =>
    match splitFirst '=' part with
    | (_, none) => authEntry parts
    | (key, some value) =>
      if eqIgnoreAsciiCase (trim (String.ofList key)) "authorization" then
        (percentDecode (trim (String.ofList value))).map some
      else authEntry parts

/-- `auth_header`, the outer `none` for the panic. -/
def authHeader (env : EnvVars) : Option (Option String) :=
  match env "OTEL_EXPORTER_OTLP_HEADERS" with
  | none => some none
  | some raw => authEntry (raw.toList.splitOn ',')

/-! ## The loop as a function of what is left -/

/-- A character is cut: the slice ends in front of a byte that continues one. -/
def cutAt (bs : Bytes) : Bool :=
  match bs with
  | _ :: _ :: z :: _ => Utf8.isCont z
  | _ => false

/-- What the loop decodes the remaining bytes to. -/
def scan : Bytes → Option Bytes
  | b :: x :: y :: rest =>
    if b = percent then
      if cutAt (x :: y :: rest) = true then none
      else
        match fromStrRadix16 [x, y] with
        | some d => (scan rest).map (d :: ·)
        | none => (scan (x :: y :: rest)).map (b :: ·)
    else (scan (x :: y :: rest)).map (b :: ·)
  | bs => some bs

variable {s : String} {a bs rest : Bytes} {b d x y : UInt8}

theorem fromStrRadix16_two (x y : UInt8) :
    fromStrRadix16 [x, y] = if x = plus then (digit y).map UInt8.ofNat else group x y := by
  unfold fromStrRadix16
  by_cases hplus : x = plus
  · simp only [if_pos hplus, List.cons_ne_nil, if_false]
    cases hy : digit y with
    | none => simp [hy]
    | some e =>
        have he := digit_lt hy
        simp [hy, show e < 256 by omega]
  · simp only [if_neg hplus, List.cons_ne_nil, if_false]
    cases hx : digit x with
    | none => simp [hx, group]
    | some d =>
        cases hy : digit y with
        | none => simp [hx, hy, group]
        | some e =>
            have hd := digit_lt hx
            have he := digit_lt hy
            simp [hx, hy, group, show d * 16 + e < 256 by omega]

/-! ### Steps of the scan -/

theorem scan_cut (hcut : cutAt (x :: y :: rest) = true) : scan (percent :: x :: y :: rest) = none := by
  rw [scan, if_pos rfl, if_pos hcut]

theorem scan_digits (hcut : ¬ cutAt (x :: y :: rest) = true) (hdigits : fromStrRadix16 [x, y] = some d) :
    scan (percent :: x :: y :: rest) = (scan rest).map (d :: ·) := by
  rw [scan, if_pos rfl, if_neg hcut, hdigits]

theorem scan_kept (hcut : ¬ cutAt (x :: y :: rest) = true) (hdigits : fromStrRadix16 [x, y] = none) :
    scan (percent :: x :: y :: rest) = (scan (x :: y :: rest)).map (percent :: ·) := by
  rw [scan, if_pos rfl, if_neg hcut, hdigits]

theorem scan_other (h : b = percent → bs.length < 2) : scan (b :: bs) = (scan bs).map (b :: ·) := by
  rcases bs with _ | ⟨x, _ | ⟨y, rest⟩⟩
  · rfl
  · rfl
  · have hb : b ≠ percent := fun heq => absurd (h heq) (by simp)
    rw [scan, if_neg hb]

/-- The scan goes on behind the bytes it has just decoded or kept. -/
theorem scan_induction {motive : Bytes → Prop} (nil : motive [])
    (cut : ∀ x y rest, cutAt (x :: y :: rest) = true → motive (percent :: x :: y :: rest))
    (digits : ∀ x y rest d, ¬ cutAt (x :: y :: rest) = true → fromStrRadix16 [x, y] = some d →
      motive rest → motive (percent :: x :: y :: rest))
    (kept : ∀ x y rest, ¬ cutAt (x :: y :: rest) = true → fromStrRadix16 [x, y] = none →
      motive (x :: y :: rest) → motive (percent :: x :: y :: rest))
    (other : ∀ b bs, (b = percent → bs.length < 2) → motive bs → motive (b :: bs)) (bs : Bytes) :
    motive bs := by
  induction hn : bs.length using Nat.strong_induction_on generalizing bs with
  | _ n ih =>
      subst hn
      rcases bs with _ | ⟨b, _ | ⟨x, _ | ⟨y, rest⟩⟩⟩
      · exact nil
      · exact other b [] (by simp) nil
      · exact other b [x] (by simp) (ih _ (by simp) _ rfl)
      · by_cases hb : b = percent
        · subst hb
          by_cases hcut : cutAt (x :: y :: rest) = true
          · exact cut x y rest hcut
          · cases hdigits : fromStrRadix16 [x, y] with
            | none => exact kept x y rest hcut hdigits (ih _ (by simp) _ rfl)
            | some d => exact digits x y rest d hcut hdigits (ih _ (by simp; omega) _ rfl)
        · exact other b _ (fun heq => absurd heq hb) (ih _ (by simp) _ rfl)

/-! ### Steps of the loop -/

/-- The slice behind a `%` stops the program if it cuts a character, and holds the two bytes otherwise. -/
theorem slice_percent (h : strBytes s = a ++ percent :: x :: y :: rest) :
    slice (strBytes s) (a.length + 1) (a.length + 3) =
      if cutAt (x :: y :: rest) = true then none else some [x, y] := by
  have hstart : isCharBoundary (strBytes s) (a.length + 1) = true :=
    isCharBoundary_succ_of_ascii h (by decide)
  have hbytes : ((strBytes s).take (a.length + 3)).drop (a.length + 1) = [x, y] := by
    rw [h, List.take_length_add_append, List.drop_append, List.drop_of_length_le (by omega)]
    simp
  have hend : isCharBoundary (strBytes s) (a.length + 3) = !cutAt (x :: y :: rest) := by
    unfold isCharBoundary
    rw [if_neg (by omega), h, List.getElem?_append_right (by omega), Nat.add_sub_cancel_left]
    cases rest with
    | nil => simp [cutAt]
    | cons z rest => simp [cutAt]
  unfold slice
  rw [hstart, hend, hbytes]
  cases cutAt (x :: y :: rest) with
  | false => simp
  | true => simp

theorem byte_at (h : strBytes s = a ++ b :: bs) : ∃ hlt : a.length < (strBytes s).length,
    (strBytes s)[a.length] = b ∧ (a.length + 2 < (strBytes s).length ↔ ¬ bs.length < 2) := by
  have hlen : (strBytes s).length = a.length + (bs.length + 1) := by
    rw [h, List.length_append, List.length_cons]
  exact ⟨by omega, by simp [h], by omega⟩

/-- At a `%` with two bytes behind it the number parser decides, if the slice goes through. -/
theorem loop_percent (h : strBytes s = a ++ percent :: x :: y :: rest) (out : Bytes) :
    percentDecodeLoop (strBytes s) a.length out =
      if cutAt (x :: y :: rest) = true then none
      else (fromStrRadix16 [x, y]).elim
        (percentDecodeLoop (strBytes s) (a ++ [percent]).length (out ++ [percent]))
        fun d => percentDecodeLoop (strBytes s) (a ++ [percent, x, y]).length (out ++ [d]) := by
  rcases byte_at h with ⟨hlt, hbyte, hroom⟩
  conv_lhs => unfold percentDecodeLoop
  rw [dif_pos hlt, hbyte, if_pos ⟨rfl, hroom.2 (by simp)⟩, slice_percent h, List.length_append,
    List.length_append]
  by_cases hcut : cutAt (x :: y :: rest) = true
  · rw [if_pos hcut, if_pos hcut]
  · rw [if_neg hcut, if_neg hcut]
    dsimp only
    cases fromStrRadix16 [x, y] with
    | none => rfl
    | some d => rfl

theorem loop_other (h : strBytes s = a ++ b :: bs) (hb : b = percent → bs.length < 2) (out : Bytes) :
    percentDecodeLoop (strBytes s) a.length out =
      percentDecodeLoop (strBytes s) (a ++ [b]).length (out ++ [b]) := by
  rcases byte_at h with ⟨hlt, hbyte, hroom⟩
  conv_lhs => unfold percentDecodeLoop
  rw [dif_pos hlt, hbyte, if_neg fun hboth => hroom.1 hboth.2 (hb hboth.1), List.length_append]
  rfl

/-- From any byte on, the loop adds the scan of what is left. -/
theorem percentDecodeLoop_eq (h : strBytes s = a ++ bs) (out : Bytes) :
    percentDecodeLoop (strBytes s) a.length out = (scan bs).map (out ++ ·) := by
  -- What has just been pushed stands between the earlier output and the rest.
  have hpush : ∀ (o : Option Bytes) (out : Bytes) (d : UInt8),
      o.map (out ++ [d] ++ ·) = (o.map (d :: ·)).map (out ++ ·) := by
    intro o out d
    rw [Option.map_map]
    exact congrArg (fun f => o.map f) (funext fun _ => List.append_assoc _ _ _)
  induction bs using scan_induction generalizing a out with
  | nil =>
      rw [percentDecodeLoop, dif_neg (by simp [h])]
      simp [scan]
  | cut x y rest hcut =>
      rw [loop_percent h, if_pos hcut, scan_cut hcut]
      rfl
  | digits x y rest d hcut hdigits ih =>
      have hmoved : strBytes s = (a ++ [percent, x, y]) ++ rest := by
        rw [h, List.append_assoc]
        rfl
      rw [loop_percent h, if_neg hcut, hdigits, Option.elim_some, ih hmoved, scan_digits hcut hdigits,
        hpush]
  | kept x y rest hcut hdigits ih =>
      have hmoved : strBytes s = (a ++ [percent]) ++ x :: y :: rest := by
        rw [h, List.append_assoc, List.singleton_append]
      rw [loop_percent h, if_neg hcut, hdigits, Option.elim_none, ih hmoved, scan_kept hcut hdigits, hpush]
  | other b bs hb ih =>
      have hmoved : strBytes s = (a ++ [b]) ++ bs := by
        rw [h, List.append_assoc, List.singleton_append]
      rw [loop_other h hb, ih hmoved, scan_other hb, hpush]

theorem percentDecodeBytes_eq (s : String) : percentDecodeBytes s = scan (strBytes s) := by
  have h := percentDecodeLoop_eq (List.nil_append (strBytes s)).symm []
  unfold percentDecodeBytes
  exact h.trans Option.map_id'

/-! ## What may stand behind a `%` -/

/-- Two digits in the eyes of the number parser, the first of which is a sign. -/
def signedAt (bs : Bytes) : Bool :=
  match bs with
  | x :: y :: _ => x == plus && (digit y).isSome
  | _ => false

/-- Behind some `%` the text goes on as `p` says. -/
def Behind (p : Bytes → Bool) (bs : Bytes) : Prop := ∃ rest, percent :: rest <:+ bs ∧ p rest = true

theorem behind_cons {p : Bytes → Bool} :
    Behind p (b :: bs) ↔ (b = percent ∧ p bs = true) ∨ Behind p bs := by
  unfold Behind
  constructor
  · rintro ⟨rest, hsuffix, hp⟩
    rcases List.suffix_cons_iff.1 hsuffix with hall | htail
    · rcases List.cons.inj hall with ⟨rfl, rfl⟩
      exact Or.inl ⟨rfl, hp⟩
    · exact Or.inr ⟨rest, htail, hp⟩
  · rintro (⟨rfl, hp⟩ | ⟨rest, hsuffix, hp⟩)
    · exact ⟨bs, List.suffix_rfl, hp⟩
    · exact ⟨rest, hsuffix.trans (List.suffix_cons b bs), hp⟩

theorem behind_percent {p : Bytes → Bool} :
    Behind p (percent :: bs) ↔ p bs = true ∨ Behind p bs := by
  rw [behind_cons, and_iff_right rfl]

/-- A byte can be passed over unless it is a `%` and the text goes on so. -/
theorem behind_cons_iff {p : Bytes → Bool} (h : b = percent → p bs = false) :
    Behind p (b :: bs) ↔ Behind p bs := by
  rw [behind_cons]
  refine ⟨fun hbehind => hbehind.resolve_left ?_, Or.inr⟩
  rintro ⟨hb, hp⟩
  exact Bool.false_ne_true ((h hb).symm.trans hp)

theorem not_behind_nil {p : Bytes → Bool} : ¬ Behind p [] := by
  rintro ⟨rest, hsuffix, -⟩
  cases List.suffix_nil.1 hsuffix

/-- Two bytes that are no `%` can be passed over. -/
theorem behind_group {p : Bytes → Bool} (hx : x ≠ percent) (hy : y ≠ percent) :
    Behind p (percent :: x :: y :: rest) ↔ p (x :: y :: rest) = true ∨ Behind p rest := by
  rw [behind_percent, behind_cons_iff fun heq => absurd heq hx, behind_cons_iff fun heq => absurd heq hy]

/-- Fewer than two bytes hold neither a cut nor a sign. -/
theorem short_eq_false (h : bs.length < 2) : cutAt bs = false ∧ signedAt bs = false := by
  rcases bs with _ | ⟨x, _ | ⟨y, rest⟩⟩
  · exact ⟨rfl, rfl⟩
  · exact ⟨rfl, rfl⟩
  · exact absurd h (by simp)

/-- What the number parser takes for digits are digits, or a sign and a digit. -/
theorem fromStrRadix16_eq_some (h : fromStrRadix16 [x, y] = some d) :
    group x y = some d ∨ x = plus ∧ digit y ≠ none ∧ d.toNat < 16 := by
  rw [fromStrRadix16_two] at h
  split_ifs at h with hplus
  · rcases Option.map_eq_some_iff.1 h with ⟨e, he, rfl⟩
    have hlt := digit_lt he
    refine Or.inr ⟨hplus, he ▸ Option.some_ne_none e, ?_⟩
    rw [toNat_ofNat_byte (by omega)]
    exact hlt
  · exact Or.inl h

theorem ne_percent_of_fromStrRadix16 (h : fromStrRadix16 [x, y] = some d) :
    x ≠ percent ∧ y ≠ percent := by
  rcases fromStrRadix16_eq_some h with hgroup | ⟨rfl, hy, -⟩
  · rcases digits_of_group hgroup with ⟨hx, hy⟩
    exact ⟨digit_ne_percent hx, digit_ne_percent hy⟩
  · exact ⟨by decide, digit_ne_percent hy⟩

theorem group_plus (y : UInt8) : group plus y = none := by
  unfold group
  rw [show digit plus = none by decide]

theorem fromStrRadix16_eq_none (rest : Bytes) (h : fromStrRadix16 [x, y] = none) :
    group x y = none ∧ signedAt (x :: y :: rest) = false := by
  rw [fromStrRadix16_two] at h
  unfold signedAt
  split_ifs at h with hplus
  · subst hplus
    rw [Option.map_eq_none_iff] at h
    exact ⟨group_plus y, by simp [h]⟩
  · exact ⟨h, by simp [hplus]⟩

/-! ## Where the decoder goes wrong -/

/-- A slice panics exactly where a `%` is followed by two bytes that end within a character. -/
theorem scan_eq_none_iff (bs : Bytes) : scan bs = none ↔ Behind cutAt bs := by
  induction bs using scan_induction with
  | nil => exact ⟨fun h => (Option.some_ne_none _ h).elim, fun h => absurd h not_behind_nil⟩
  | cut x y rest hcut =>
      rw [scan_cut hcut]
      exact ⟨fun _ => behind_percent.2 (Or.inl hcut), fun _ => rfl⟩
  | digits x y rest d hcut hdigits ih =>
      rcases ne_percent_of_fromStrRadix16 hdigits with ⟨hx, hy⟩
      rw [scan_digits hcut hdigits, behind_group hx hy, or_iff_right hcut, ← ih]
      exact Option.map_eq_none_iff
  | kept x y rest hcut hdigits ih =>
      rw [scan_kept hcut hdigits, behind_percent, or_iff_right hcut, ← ih]
      exact Option.map_eq_none_iff
  | other b bs hb ih =>
      rw [scan_other hb, behind_cons_iff fun heq => (short_eq_false (hb heq)).1, ← ih]
      exact Option.map_eq_none_iff

theorem map_cons_eq_some_iff {o : Option Bytes} :
    o.map (b :: ·) = some (b :: bs) ↔ o = some bs := by
  cases o with
  | none => simp
  | some out => simp

/-- Everything is decoded as by the standard exactly if no `%` is followed by a cut or by a sign. -/
theorem scan_eq_decode_iff (bs : Bytes) :
    scan bs = some (decode bs) ↔ ¬ Behind cutAt bs ∧ ¬ Behind signedAt bs := by
  induction bs using scan_induction with
  | nil => exact ⟨fun _ => ⟨not_behind_nil, not_behind_nil⟩, fun _ => rfl⟩
  | cut x y rest hcut =>
      rw [scan_cut hcut]
      exact ⟨fun h => (Option.some_ne_none _ h.symm).elim,
        fun h => absurd (behind_percent.2 (Or.inl hcut)) h.1⟩
  | digits x y rest d hcut hdigits ih =>
      rcases ne_percent_of_fromStrRadix16 hdigits with ⟨hx, hy⟩
      rw [scan_digits hcut hdigits, behind_group hx hy, behind_group hx hy, or_iff_right hcut]
      rcases fromStrRadix16_eq_some hdigits with hgroup | ⟨rfl, hdigit, hlt⟩
      · have hunsigned : ¬ signedAt (x :: y :: rest) = true := by
          intro h
          have hplus : x = plus := by
            simp only [signedAt, Bool.and_eq_true, beq_iff_eq] at h
            exact h.1
          rw [hplus, group_plus] at hgroup
          cases hgroup
        rw [decode_escape hgroup, or_iff_right hunsigned, ← ih]
        exact map_cons_eq_some_iff
      · -- The byte denoted by a sign and a digit is no `%`, so the results part here.
        have hsigned : signedAt (plus :: y :: rest) = true := by
          simp [signedAt, Option.isSome_iff_ne_none, hdigit]
        constructor
        · intro h
          rw [decode_percent (group_plus y)] at h
          rcases Option.map_eq_some_iff.1 h with ⟨out, -, hsame⟩
          rw [(List.cons.inj hsame).1] at hlt
          exact absurd hlt (by decide)
        · exact fun h => absurd (Or.inl hsigned) h.2
  | kept x y rest hcut hdigits ih =>
      rcases fromStrRadix16_eq_none rest hdigits with ⟨hgroup, hunsigned⟩
      rw [scan_kept hcut hdigits, decode_percent hgroup, behind_percent (p := cutAt), or_iff_right hcut,
        behind_cons_iff (p := signedAt) fun _ => hunsigned, ← ih]
      exact map_cons_eq_some_iff
  | other b bs hb ih =>
      rw [scan_other hb, decode_cons hb, behind_cons_iff fun heq => (short_eq_false (hb heq)).1,
        behind_cons_iff fun heq => (short_eq_false (hb heq)).2, ← ih]
      exact map_cons_eq_some_iff

/-! ## Texts that are percent-encoded -/

/-- A percent-encoding is ASCII, so no character in it can be cut. -/
theorem not_isCont_of_encodes {e : Bytes} (h : Encodes e bs) : ∀ z ∈ e, Utf8.isCont z = false := by
  have hascii : ∀ z : UInt8, z.toNat < 0x80 → Utf8.isCont z = false := by
    intro z hz
    rw [Bool.eq_false_iff, ne_eq, Utf8.isCont_iff]
    omega
  induction h with
  | nil => simp
  | kept hb _ _ ih =>
      intro z hz
      rcases List.mem_cons.1 hz with rfl | hz
      · exact hascii z hb
      · exact ih z hz
  | escaped hb _ ih =>
      rcases digits_of_group hb with ⟨hx, hy⟩
      intro z hz
      simp only [List.mem_cons] at hz
      rcases hz with rfl | rfl | rfl | hz
      · decide
      · exact hascii z (toNat_lt_of_digit hx)
      · exact hascii z (toNat_lt_of_digit hy)
      · exact ih z hz

/-- In a percent-encoding there are two digits behind every `%`. -/
theorem not_behind_of_encodes {e : Bytes} (h : Encodes e bs) :
    ¬ Behind cutAt e ∧ ¬ Behind signedAt e := by
  have hall := not_isCont_of_encodes h
  induction h with
  | nil => exact ⟨not_behind_nil, not_behind_nil⟩
  | kept _ hb _ ih =>
      rw [behind_cons_iff fun heq => absurd heq hb, behind_cons_iff fun heq => absurd heq hb]
      exact ih fun z hz => hall z (List.mem_cons_of_mem _ hz)
  | @escaped x y b e bs hb _ ih =>
      rcases digits_of_group hb with ⟨hx, hy⟩
      have hwhole : cutAt (x :: y :: e) = false := by
        cases e with
        | nil => rfl
        | cons z e => exact hall z (by simp)
      have hunsigned : signedAt (x :: y :: e) = false := by
        have hplus : x ≠ plus := by
          rintro rfl
          exact hx (by decide)
        simp [signedAt, hplus]
      rw [behind_group (digit_ne_percent hx) (digit_ne_percent hy),
        behind_group (digit_ne_percent hx) (digit_ne_percent hy), hwhole, hunsigned]
      simpa using ih fun z hz => hall z (by simp [hz])

theorem fromUtf8Lossy_strBytes (t : String) : fromUtf8Lossy (strBytes t) = t := by
  unfold fromUtf8Lossy
  rw [Utf8.pieces_strBytes, List.map_map]
  exact (congrArg String.ofList (List.map_id t.toList)).trans String.ofList_toList

/-- The value that `auth_header` decodes. -/
def authValue : List (List Char) → Option String
  | [] => none
  | part :: parts =>
    match splitFirst '=' part with
    | (_, none) => authValue parts
    | (key, some value) =>
      if eqIgnoreAsciiCase (trim (String.ofList key)) "authorization" then
        some (trim (String.ofList value))
      else authValue parts

theorem authEntry_eq (parts : List (List Char)) :
    authEntry parts = ((authValue parts).mapM percentDecode) := by
  induction parts with
  | nil => rfl
  | cons part parts ih =>
      unfold authEntry authValue
      rcases splitFirst '=' part with ⟨key, _ | value⟩
      · exact ih
      · dsimp only
        split_ifs
        · rw [Option.mapM_some]
          rfl
        · exact ih

/-- The exporter's start stops the worker exactly if the credentials in the environment hold a cut. -/
theorem authHeader_eq_none_iff (env : EnvVars) :
    authHeader env = none ↔ ∃ raw value, env "OTEL_EXPORTER_OTLP_HEADERS" = some raw ∧
      authValue (raw.toList.splitOn ',') = some value ∧ Behind cutAt (strBytes value) := by
  unfold authHeader
  cases henv : env "OTEL_EXPORTER_OTLP_HEADERS" with
  | none => simp
  | some raw =>
      simp only [authEntry_eq, Option.some.injEq, exists_and_left, exists_eq_left']
      cases hvalue : authValue (raw.toList.splitOn ',') with
      | none => simp
      | some value =>
          simp [percentDecode, percentDecodeBytes_eq, scan_eq_none_iff]

/-- `percent_decode` stops the program exactly for the texts in which the two bytes behind some `%` end
within a character.  It decodes like the standard exactly if moreover behind no `%` there is a plus sign and
a digit.  What is the percent-encoding of a text is always mapped back to the text. -/
theorem percentDecode_iff (s : String) :
    (percentDecodeBytes s = none ↔ Behind cutAt (strBytes s)) ∧
      (percentDecodeBytes s = some (decode (strBytes s)) ↔
        ¬ Behind cutAt (strBytes s) ∧ ¬ Behind signedAt (strBytes s)) ∧
      ∀ t : String, Encodes (strBytes s) (strBytes t) → percentDecode s = some t := by
  rw [percentDecodeBytes_eq]
  refine ⟨scan_eq_none_iff _, scan_eq_decode_iff _, ?_⟩
  intro t hencodes
  have hdecoded : scan (strBytes s) = some (strBytes t) := by
    rw [(scan_eq_decode_iff _).2 (not_behind_of_encodes hencodes), decode_of_encodes hencodes]
  unfold percentDecode
  rw [percentDecodeBytes_eq, hdecoded, Option.map_some, fromUtf8Lossy_strBytes]

/-- The slice behind the `%` ends within the currency sign; a plus sign and a digit are taken for a byte. -/
theorem percentDecode_aborts :
    percentDecodeBytes "%€" = none ∧
      percentDecodeBytes "%+5" = some [5] ∧ decode (strBytes "%+5") = strBytes "%+5" := by
  rw [percentDecodeBytes_eq, percentDecodeBytes_eq]
  decide

end Otlp
end GatewayEdge
