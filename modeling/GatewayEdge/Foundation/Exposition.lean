import GatewayEdge.Foundation.Text
import Mathlib.Data.List.Nodup

/-!
# Exposition — the text format of a metrics page

A page is a list of families.  A family has a help line, a type line and samples; a sample names its series,
a metric with labels, and gives its value as text.  The value of a label may be any text at all, so it is
escaped: a backslash, a quote and a newline do not stand for themselves.

A page reads back as the lines it was rendered from (`read_render`), whatever is in its labels.
-/

namespace GatewayEdge
namespace Foundation
namespace Exposition

inductive Kind
  | counter
  | gauge
  | histogram
  deriving DecidableEq, Repr

structure Series where
  metric : String
  labels : List (String × String) := []
  deriving DecidableEq, Repr

structure Sample where
  series : Series
  value : String
  deriving DecidableEq, Repr

structure Family where
  metric : String
  help : String
  kind : Kind
  samples : List Sample
  deriving DecidableEq, Repr

inductive Line
  | help (metric text : String)
  | type (metric : String) (kind : Kind)
  | sample (sample : Sample)
  deriving DecidableEq, Repr

def Family.lines (f : Family) : List Line :=
  .help f.metric f.help :: .type f.metric f.kind :: f.samples.map .sample

/-! ## Rendering -/

def Kind.text : Kind → String
  | .counter => "counter"
  | .gauge => "gauge"
  | .histogram => "histogram"

def escapeChar (c : Char) : List Char :=
  if c = '\\' then ['\\', '\\']
  else if c = '"' then ['\\', '"']
  else if c = '\n' then ['\\', 'n']
  else [c]

def escape (v : List Char) : List Char := v.flatMap escapeChar

def labelText (l : String × String) : List Char :=
  l.1.toList ++ '=' :: '"' :: (escape l.2.toList ++ ['"'])

def labelsText : List (String × String) → List Char
  | [] => []
  | l :: ls => '\x7b' :: (labelText l ++ (ls.flatMap (fun l => ',' :: labelText l) ++ ['\x7d']))

def Line.text : Line → List Char
  | .help m t => "# HELP ".toList ++ (m.toList ++ ' ' :: t.toList)
  | .type m k => "# TYPE ".toList ++ (m.toList ++ ' ' :: k.text.toList)
  | .sample s => s.series.metric.toList ++ (labelsText s.series.labels ++ ' ' :: s.value.toList)

theorem text_help (m t : String) : (Line.help m t).text = "# HELP ".toList ++ (m.toList ++ ' ' :: t.toList) :=
  rfl

theorem text_type (m : String) (k : Kind) :
    (Line.type m k).text = "# TYPE ".toList ++ (m.toList ++ ' ' :: k.text.toList) := rfl

theorem text_sample (series : Series) (value : String) :
    (Line.sample { series := series, value := value }).text =
      series.metric.toList ++ (labelsText series.labels ++ ' ' :: value.toList) := rfl

/-- Every line is ended by a newline. -/
def render (page : List Line) : List Char := page.flatMap fun l => l.text ++ ['\n']

/-! ## Reading -/

def Kind.read (cs : List Char) : Option Kind :=
  if cs = Kind.counter.text.toList then some .counter
  else if cs = Kind.gauge.text.toList then some .gauge
  else if cs = Kind.histogram.text.toList then some .histogram
  else none

/-- The characters of metric and label names. -/
def nameChar (c : Char) : Bool := c.isAlphanum || c == '_' || c == ':'

def takeName (cs : List Char) : Option (String × List Char) :=
  match cs.takeWhile nameChar, cs.dropWhile nameChar with
  | [], _ => none
  | name, rest => some (String.ofList name, rest)

/-- Up to the quote that is not escaped. -/
def readQuoted : List Char → Option (List Char × List Char)
  | [] => none
  | '"' :: rest => some ([], rest)
  | '\\' :: '\\' :: rest => (readQuoted rest).map fun r => ('\\' :: r.1, r.2)
  | '\\' :: '"' :: rest => (readQuoted rest).map fun r => ('"' :: r.1, r.2)
  | '\\' :: 'n' :: rest => (readQuoted rest).map fun r => ('\n' :: r.1, r.2)
  | '\\' :: _ => none
  | c :: rest => (readQuoted rest).map fun r => (c :: r.1, r.2)

/-- The next character, which must be `c`. -/
def expect (c : Char) : List Char → Option (List Char)
  | [] => none
  | d :: rest => if d = c then some rest else none

def readLabel (cs : List Char) : Option ((String × String) × List Char) := do
  let (name, rest) ← takeName cs
  let rest ← expect '=' rest
  let rest ← expect '"' rest
  let (v, rest) ← readQuoted rest
  some ((name, String.ofList v), rest)

/-- At most `fuel` labels, the opening brace or a comma having been read. -/
def readLabels : ℕ → List Char → Option (List (String × String) × List Char)
  | 0, _ => none
  | fuel + 1, cs => do
    let (l, rest) ← readLabel cs
    match expect ',' rest with
    | some rest => do
      let (ls, rest) ← readLabels fuel rest
      some (l :: ls, rest)
    | none => do
      let rest ← expect '\x7d' rest
      some ([l], rest)

def readAllLabels (cs : List Char) : Option (List (String × String) × List Char) :=
  match expect '\x7b' cs with
  | some rest => readLabels rest.length rest
  | none => some ([], cs)

/-- The value is all of the rest and has no blank in it: there is no timestamp. -/
def readValue (cs : List Char) : Option String :=
  if cs = [] ∨ ' ' ∈ cs then none else some (String.ofList cs)

def readSample (cs : List Char) : Option Sample := do
  let (metric, rest) ← takeName cs
  let (labels, rest) ← readAllLabels rest
  let rest ← expect ' ' rest
  let value ← readValue rest
  some { series := { metric := metric, labels := labels }, value := value }

def readHelp (cs : List Char) : Option Line := do
  let (metric, rest) ← takeName cs
  let rest ← expect ' ' rest
  some (.help metric (String.ofList rest))

def readType (cs : List Char) : Option Line := do
  let (metric, rest) ← takeName cs
  let rest ← expect ' ' rest
  let kind ← Kind.read rest
  some (.type metric kind)

def readLine : List Char → Option Line
  | '#' :: ' ' :: 'H' :: 'E' :: 'L' :: 'P' :: ' ' :: rest => readHelp rest
  | '#' :: ' ' :: 'T' :: 'Y' :: 'P' :: 'E' :: ' ' :: rest => readType rest
  | cs => (readSample cs).map .sample

/-- Nothing may stand behind the last newline. -/
def read (text : List Char) : Option (List Line) :=
  let pieces := text.splitOn '\n'
  if pieces.getLast? = some [] then pieces.dropLast.mapM readLine else none

/-! ## Well-formed lines -/

def IsName (s : String) : Prop := s.toList ≠ [] ∧ ∀ c ∈ s.toList, nameChar c = true

instance (s : String) : Decidable (IsName s) :=
  @instDecidableAnd _ _ inferInstance (List.decidableBAll _ s.toList)

/-- A value is one word: no blank and no control character in it. -/
def IsValue (s : String) : Prop := s.toList ≠ [] ∧ ∀ c ∈ s.toList, 32 < c.toNat

instance (s : String) : Decidable (IsValue s) :=
  @instDecidableAnd _ _ inferInstance (List.decidableBAll _ s.toList)

theorem IsValue.append {s t : String} (hs : IsValue s) (ht : IsValue t) : IsValue (s ++ t) := by
  refine ⟨?_, fun c hc => ?_⟩
  · simp [String.toList_append, hs.1]
  · rw [String.toList_append] at hc
    rcases List.mem_append.1 hc with hc | hc
    · exact hs.2 c hc
    · exact ht.2 c hc

/-- A help text has no control characters in it. -/
def IsText (s : String) : Prop := ∀ c ∈ s.toList, 32 ≤ c.toNat

instance (s : String) : Decidable (IsText s) := List.decidableBAll _ s.toList

def Sample.WellFormed (s : Sample) : Prop :=
  IsName s.series.metric ∧ (∀ l ∈ s.series.labels, IsName l.1) ∧ IsValue s.value

def Line.WellFormed : Line → Prop
  | .help m t => IsName m ∧ IsText t
  | .type m _ => IsName m
  | .sample s => s.WellFormed

theorem not_nameChar_of {c d : Char} (hc : nameChar c = true) (hd : nameChar d = false) : c ≠ d := by
  rintro rfl
  rw [hc] at hd
  cases hd

/-- A name ends where a character stands that is none of its kind. -/
theorem takeName_append {s : String} (h : IsName s) {d : Char} (hd : nameChar d = false)
    (rest : List Char) : takeName (s.toList ++ d :: rest) = some (s, d :: rest) := by
  have htake : (s.toList ++ d :: rest).takeWhile nameChar = s.toList := by
    rw [List.takeWhile_append_of_pos h.2, List.takeWhile_cons_of_neg (by simp [hd]), List.append_nil]
  have hdrop : (s.toList ++ d :: rest).dropWhile nameChar = d :: rest := by
    rw [List.dropWhile_append_of_pos h.2, List.dropWhile_cons_of_neg (by simp [hd])]
  unfold takeName
  rw [htake, hdrop]
  cases hchars : s.toList with
  | nil => exact absurd hchars h.1
  | cons c cs =>
      dsimp only
      rw [← hchars, String.ofList_toList]

/-! ## Escaped text -/

theorem readQuoted_cons {c : Char} (hquote : c ≠ '"') (hslash : c ≠ '\\') (rest : List Char) :
    readQuoted (c :: rest) = (readQuoted rest).map fun r => (c :: r.1, r.2) := by
  conv_lhs => unfold readQuoted
  split <;> simp_all

/-- An escaped text is read up to the quote that closes it. -/
theorem readQuoted_escape (v rest : List Char) :
    readQuoted (escape v ++ '"' :: rest) = some (v, rest) := by
  induction v with
  | nil => rfl
  | cons c v ih =>
      have hcons : escape (c :: v) = escapeChar c ++ escape v := rfl
      rw [hcons, List.append_assoc]
      by_cases hslash : c = '\\'
      · subst hslash
        show (readQuoted (escape v ++ '"' :: rest)).map _ = _
        rw [ih]
        rfl
      · by_cases hquote : c = '"'
        · subst hquote
          show (readQuoted (escape v ++ '"' :: rest)).map _ = _
          rw [ih]
          rfl
        · by_cases hline : c = '\n'
          · subst hline
            show (readQuoted (escape v ++ '"' :: rest)).map _ = _
            rw [ih]
            rfl
          · have hplain : escapeChar c = [c] := by
              unfold escapeChar
              rw [if_neg hslash, if_neg hquote, if_neg hline]
            rw [hplain, List.singleton_append, readQuoted_cons hquote hslash, ih]
            rfl

/-- A control character other than a newline is not escaped. -/
theorem mem_escape_iff {c : Char} (hc : c.toNat < 32) (hline : c ≠ '\n') (v : List Char) :
    c ∈ escape v ↔ c ∈ v := by
  have hslash : c ≠ '\\' := by
    rintro rfl
    exact absurd hc (by decide)
  have hquote : c ≠ '"' := by
    rintro rfl
    exact absurd hc (by decide)
  have hn : c ≠ 'n' := by
    rintro rfl
    exact absurd hc (by decide)
  have hchar : ∀ d, c ∈ escapeChar d ↔ c = d := by
    intro d
    unfold escapeChar
    split_ifs with h h h <;> simp [h, hslash, hquote, hline, hn]
  unfold escape
  simp [List.mem_flatMap, hchar]

theorem newline_notMem_escape (v : List Char) : '\n' ∉ escape v := by
  intro hmem
  rcases List.mem_flatMap.1 hmem with ⟨c, -, hc⟩
  unfold escapeChar at hc
  split_ifs at hc with hslash hquote hline
  · exact absurd hc (by decide)
  · exact absurd hc (by decide)
  · exact absurd hc (by decide)
  · exact hline (List.mem_singleton.1 hc).symm

/-- Plain text stands for itself. -/
theorem escape_of_plain {v : List Char} (h : ∀ c ∈ v, c ≠ '\\' ∧ c ≠ '"' ∧ c ≠ '\n') : escape v = v := by
  induction v with
  | nil => rfl
  | cons c v ih =>
      rcases h c List.mem_cons_self with ⟨hslash, hquote, hline⟩
      have hcons : escape (c :: v) = escapeChar c ++ escape v := rfl
      have hplain : escapeChar c = [c] := by
        unfold escapeChar
        rw [if_neg hslash, if_neg hquote, if_neg hline]
      rw [hcons, hplain, ih fun d hd => h d (List.mem_cons_of_mem c hd), List.singleton_append]

/-! ## Numbers -/

theorem isDigit_of_mem_toString (n : Nat) : ∀ c ∈ (toString n).toList, c.isDigit = true := by
  intro c hc
  rw [Nat.toString_eq_ofList_toDigits, String.toList_ofList] at hc
  exact Nat.isDigit_of_mem_toDigits (by decide) (by decide) hc

theorem ne_of_isDigit {c d : Char} (hc : c.isDigit = true) (hd : d.isDigit = false) : c ≠ d := by
  rintro rfl
  rw [hc] at hd
  cases hd

theorem lt_toNat_of_isDigit {c : Char} (h : c.isDigit = true) : 32 < c.toNat := by
  have hzero : '0'.toNat ≤ c.toNat := by
    rw [Char.isDigit, Bool.and_eq_true] at h
    exact UInt32.le_iff_toNat_le.1 (of_decide_eq_true h.1)
  exact lt_of_lt_of_le (by decide) hzero

theorem escape_digits (n : Nat) : escape (toString n).toList = (toString n).toList := by
  refine escape_of_plain fun c hc => ?_
  have hdigit := isDigit_of_mem_toString n c hc
  exact ⟨ne_of_isDigit hdigit (by decide), ne_of_isDigit hdigit (by decide),
    ne_of_isDigit hdigit (by decide)⟩

theorem isValue_toString (n : Nat) : IsValue (toString n) := by
  refine ⟨?_, fun c hc => ?_⟩
  · rw [Nat.toString_eq_ofList_toDigits, String.toList_ofList]
    exact Nat.toDigits_ne_nil
  · exact lt_toNat_of_isDigit (isDigit_of_mem_toString n c hc)

theorem isValue_toString_int (i : Int) : IsValue (toString i) := by
  cases i with
  | ofNat n => exact isValue_toString n
  | negSucc n =>
      have hsign : IsValue "-" := by decide
      exact hsign.append (isValue_toString (n + 1))

/-! ## Lines read back -/

@[simp] theorem expect_self (c : Char) (rest : List Char) : expect c (c :: rest) = some rest :=
  if_pos rfl

@[simp] theorem expect_of_ne {c d : Char} (h : d ≠ c) (rest : List Char) : expect c (d :: rest) = none :=
  if_neg h

theorem readLabel_labelText {l : String × String} (h : IsName l.1) (rest : List Char) :
    readLabel (labelText l ++ rest) = some (l, rest) := by
  have htext : labelText l ++ rest = l.1.toList ++ '=' :: ('"' :: (escape l.2.toList ++ '"' :: rest)) := by
    simp [labelText]
  unfold readLabel
  rw [htext, takeName_append h (by decide)]
  simp [readQuoted_escape]

theorem readLabels_labelsText {l : String × String} {ls : List (String × String)}
    (h : ∀ m ∈ l :: ls, IsName m.1) (rest : List Char) {fuel : ℕ} (hfuel : ls.length < fuel) :
    readLabels fuel (labelText l ++ (ls.flatMap (fun l => ',' :: labelText l) ++ '\x7d' :: rest)) =
      some (l :: ls, rest) := by
  induction ls generalizing l fuel with
  | nil =>
      cases fuel with
      | zero => cases hfuel
      | succ fuel =>
          unfold readLabels
          rw [readLabel_labelText (h l List.mem_cons_self)]
          simp
  | cons m ls ih =>
      cases fuel with
      | zero => cases hfuel
      | succ fuel =>
          have hrest := ih (fun n hn => h n (List.mem_cons_of_mem l hn)) (Nat.lt_of_succ_lt_succ hfuel)
          unfold readLabels
          rw [readLabel_labelText (h l List.mem_cons_self), List.flatMap_cons, List.cons_append,
            List.cons_append, List.append_assoc]
          simp [hrest]

/-- A label takes up more than one character. -/
theorem length_le_flatMap_labelText (ls : List (String × String)) :
    ls.length ≤ (ls.flatMap fun l => ',' :: labelText l).length := by
  induction ls with
  | nil => exact Nat.zero_le _
  | cons l ls ih =>
      rw [List.flatMap_cons, List.length_append, List.length_cons, List.length_cons]
      omega

theorem readAllLabels_labelsText {ls : List (String × String)} (h : ∀ l ∈ ls, IsName l.1)
    (rest : List Char) : readAllLabels (labelsText ls ++ ' ' :: rest) = some (ls, ' ' :: rest) := by
  cases ls with
  | nil => rfl
  | cons l ls =>
      have htext : labelsText (l :: ls) ++ ' ' :: rest =
          '\x7b' :: (labelText l ++ (ls.flatMap (fun l => ',' :: labelText l) ++ '\x7d' :: ' ' :: rest)) := by
        simp [labelsText]
      have hlen := length_le_flatMap_labelText ls
      unfold readAllLabels
      rw [htext, expect_self]
      dsimp only
      refine readLabels_labelsText h _ ?_
      simp only [List.length_append, List.length_cons]
      omega

theorem readValue_of_isValue {v : String} (h : IsValue v) : readValue v.toList = some v := by
  unfold readValue
  rw [if_neg (not_or.2 ⟨h.1, fun hmem => absurd (h.2 _ hmem) (by decide)⟩), String.ofList_toList]

/-- What may follow a metric: a blank, or the brace that opens the labels. -/
theorem labelsText_cons (ls : List (String × String)) (rest : List Char) :
    ∃ d more, labelsText ls ++ ' ' :: rest = d :: more ∧ nameChar d = false := by
  cases ls with
  | nil => exact ⟨' ', rest, rfl, by decide⟩
  | cons l ls => exact ⟨'\x7b', _, rfl, by decide⟩

theorem readSample_text {s : Sample} (h : s.WellFormed) : readSample (Line.sample s).text = some s := by
  rcases labelsText_cons s.series.labels s.value.toList with ⟨d, more, htext, hd⟩
  have hlabels := readAllLabels_labelsText h.2.1 s.value.toList
  rw [htext] at hlabels
  unfold readSample Line.text
  dsimp only
  rw [htext, takeName_append h.1 hd]
  simp [hlabels, readValue_of_isValue h.2.2]

theorem Kind.read_text (k : Kind) : Kind.read k.text.toList = some k := by
  cases k <;> rfl

/-- A sample is no comment: its first character belongs to a name. -/
theorem readLine_sample {cs : List Char} (h : ∀ rest, cs ≠ '#' :: rest) :
    readLine cs = (readSample cs).map .sample := by
  unfold readLine
  split
  · exact absurd rfl (h _)
  · exact absurd rfl (h _)
  · rfl

theorem readLine_text {l : Line} (h : l.WellFormed) : readLine l.text = some l := by
  cases l with
  | help m t =>
      show readHelp (m.toList ++ ' ' :: t.toList) = _
      unfold readHelp
      rw [takeName_append h.1 (by decide)]
      simp
  | type m k =>
      have hname : IsName m := h
      show readType (m.toList ++ ' ' :: k.text.toList) = _
      unfold readType
      rw [takeName_append hname (by decide)]
      simp [Kind.read_text]
  | sample s =>
      have hstart : ∀ rest, (Line.sample s).text ≠ '#' :: rest := by
        intro rest htext
        have hname : IsName s.series.metric := h.1
        cases hchars : s.series.metric.toList with
        | nil => exact hname.1 hchars
        | cons c cs =>
            unfold Line.text at htext
            dsimp only at htext
            rw [hchars, List.cons_append] at htext
            have hc := hname.2 c (by rw [hchars]; exact List.mem_cons_self)
            exact not_nameChar_of hc (by decide) (List.head_eq_of_cons_eq htext)
      rw [readLine_sample hstart, readSample_text h, Option.map_some]

/-! ## Pages read back -/

theorem IsName.lt_toNat {s : String} (h : IsName s) {c : Char} (hc : c ∈ s.toList) : 32 ≤ c.toNat := by
  by_contra hcontrol
  have hcode : ∀ n < 32, nameChar (Char.ofNat n) = false := by decide
  have hname := h.2 c hc
  rw [← Char.ofNat_toNat c, hcode _ (Nat.lt_of_not_le hcontrol)] at hname
  cases hname

section Control

variable {c : Char} (hc : c.toNat < 32)

include hc

theorem control_mem_labelText {l : String × String} (h : IsName l.1) :
    c ∈ labelText l ↔ c ∈ escape l.2.toList := by
  have hname : c ∉ l.1.toList := fun hmem => absurd (h.lt_toNat hmem) (Nat.not_le.2 hc)
  have hequal : c ≠ '=' := by
    rintro rfl
    exact absurd hc (by decide)
  have hquote : c ≠ '"' := by
    rintro rfl
    exact absurd hc (by decide)
  unfold labelText
  simp [hname, hequal, hquote]

theorem control_mem_labelsText {ls : List (String × String)} (h : ∀ l ∈ ls, IsName l.1) :
    c ∈ labelsText ls ↔ ∃ l ∈ ls, c ∈ escape l.2.toList := by
  have hopen : c ≠ '\x7b' := by
    rintro rfl
    exact absurd hc (by decide)
  have hclose : c ≠ '\x7d' := by
    rintro rfl
    exact absurd hc (by decide)
  have hcomma : c ≠ ',' := by
    rintro rfl
    exact absurd hc (by decide)
  cases ls with
  | nil => simp [labelsText]
  | cons l ls =>
      have hrest : (c ∈ ls.flatMap fun l => ',' :: labelText l) ↔ ∃ l ∈ ls, c ∈ escape l.2.toList := by
        rw [List.mem_flatMap]
        refine exists_congr fun m => and_congr_right fun hm => ?_
        rw [List.mem_cons, control_mem_labelText hc (h m (List.mem_cons_of_mem l hm))]
        exact or_iff_right hcomma
      unfold labelsText
      rw [List.mem_cons, List.mem_append, List.mem_append, List.mem_singleton,
        control_mem_labelText hc (h l List.mem_cons_self), hrest]
      simp only [hopen, hclose, false_or, or_false, List.mem_cons, exists_eq_or_imp]

/-- Only in the labels of a sample there may be control characters. -/
theorem control_mem_text {l : Line} (h : l.WellFormed) :
    c ∈ l.text ↔ ∃ s, l = .sample s ∧ ∃ p ∈ s.series.labels, c ∈ escape p.2.toList := by
  have hblank : c ≠ ' ' := by
    rintro rfl
    exact absurd hc (by decide)
  -- It is none of the characters of a name, a text or a value.
  have hcontrol : ∀ {d : Char}, 32 ≤ d.toNat → c ≠ d := by
    rintro d hd rfl
    exact absurd hd (Nat.not_le.2 hc)
  have hstart : ∀ start ∈ ["# HELP ", "# TYPE "], c ∉ start.toList := by
    have hcodes : ∀ start ∈ ["# HELP ", "# TYPE "], IsText start := by decide
    exact fun start hs hmem => hcontrol (hcodes start hs c hmem) rfl
  have hname : ∀ {m : String}, IsName m → c ∉ m.toList := fun hm hmem => hcontrol (hm.lt_toNat hmem) rfl
  cases l with
  | help m t =>
      have htext : c ∉ t.toList := fun hmem => hcontrol (h.2 c hmem) rfl
      have hstart := hstart "# HELP " (by decide)
      rw [text_help, List.mem_append, List.mem_append, List.mem_cons]
      simp only [hstart, hname h.1, hblank, htext, or_self, false_iff]
      rintro ⟨s, hs, -⟩
      cases hs
  | type m k =>
      have hm : IsName m := h
      have hkind : c ∉ k.text.toList := by
        have hcodes : IsText k.text := by cases k <;> decide
        exact fun hmem => hcontrol (hcodes c hmem) rfl
      have hstart := hstart "# TYPE " (by decide)
      rw [text_type, List.mem_append, List.mem_append, List.mem_cons]
      simp only [hstart, hname hm, hblank, hkind, or_self, false_iff]
      rintro ⟨s, hs, -⟩
      cases hs
  | sample s =>
      rcases s with ⟨series, value⟩
      have hvalue : c ∉ value.toList := fun hmem => hcontrol (Nat.le_of_lt (h.2.2.2 c hmem)) rfl
      rw [text_sample, List.mem_append, List.mem_append, List.mem_cons, control_mem_labelsText hc h.2.1]
      simp only [hname h.1, hblank, hvalue, or_false, false_or]
      constructor
      · exact fun hlabels => ⟨_, rfl, hlabels⟩
      · rintro ⟨s, hs, hlabels⟩
        cases hs
        exact hlabels

end Control

theorem newline_notMem_text {l : Line} (h : l.WellFormed) : '\n' ∉ l.text := by
  intro hmem
  rcases (control_mem_text (by decide) h).1 hmem with ⟨s, -, p, -, hp⟩
  exact newline_notMem_escape _ hp

theorem render_append (page page' : List Line) : render (page ++ page') = render page ++ render page' :=
  List.flatMap_append

theorem render_eq_intercalate (page : List Line) :
    render page = ['\n'].intercalate (page.map Line.text ++ [[]]) := by
  induction page with
  | nil => rfl
  | cons l page ih =>
      have hne : page.map Line.text ++ [[]] ≠ [] := by simp
      have hcons : render (l :: page) = (l.text ++ ['\n']) ++ render page := rfl
      rw [hcons, ih, List.map_cons, List.cons_append, List.intercalate_cons_of_ne_nil hne]

theorem mapM_readLine {page : List Line} (h : ∀ l ∈ page, l.WellFormed) :
    (page.map Line.text).mapM readLine = some page := by
  induction page with
  | nil => rfl
  | cons l page ih =>
      rw [List.map_cons, List.mapM_cons, readLine_text (h l List.mem_cons_self),
        ih fun m hm => h m (List.mem_cons_of_mem l hm)]
      rfl

/-- A page of well-formed lines reads back as these lines. -/
theorem read_render {page : List Line} (h : ∀ l ∈ page, l.WellFormed) : read (render page) = some page := by
  have hsplit : (render page).splitOn '\n' = page.map Line.text ++ [[]] := by
    rw [render_eq_intercalate]
    refine List.splitOn_intercalate '\n' ?_ (by simp)
    intro cs hcs
    rcases List.mem_append.1 hcs with htext | hlast
    · rcases List.mem_map.1 htext with ⟨l, hl, rfl⟩
      exact newline_notMem_text (h l hl)
    · rw [List.mem_singleton.1 hlast]
      exact List.not_mem_nil
  unfold read
  dsimp only
  rw [hsplit, List.getLast?_concat, if_pos rfl, List.dropLast_concat, mapM_readLine h]

/-! ## What a page says -/

def Line.sample? : Line → Option Sample
  | .sample s => some s
  | _ => none

def samplesOf (page : List Line) : List Sample := page.filterMap Line.sample?

/-- The value a page gives for a series. -/
def valueOf (page : List Line) (series : Series) : Option String :=
  ((samplesOf page).find? fun s => s.series = series).map Sample.value

/-- On a page that has no series twice, every sample is found. -/
theorem valueOf_of_mem {page : List Line} (hnodup : ((samplesOf page).map Sample.series).Nodup) {s : Sample}
    (hs : s ∈ samplesOf page) : valueOf page s.series = some s.value := by
  unfold valueOf
  generalize samplesOf page = samples at hnodup hs
  induction samples with
  | nil => cases hs
  | cons t samples ih =>
      rw [List.map_cons, List.nodup_cons] at hnodup
      rw [List.find?_cons]
      rcases List.mem_cons.1 hs with rfl | hs
      · rw [decide_eq_true rfl]
        rfl
      · have hne : t.series ≠ s.series := fun heq =>
          hnodup.1 (heq ▸ List.mem_map.2 ⟨s, hs, rfl⟩)
        rw [decide_eq_false hne]
        exact ih hnodup.2 hs

theorem samplesOf_lines (fs : List Family) : samplesOf (fs.flatMap Family.lines) = fs.flatMap Family.samples := by
  induction fs with
  | nil => rfl
  | cons f fs ih =>
      have hsamples : samplesOf f.lines = f.samples := by
        show (f.samples.map Line.sample).filterMap Line.sample? = f.samples
        rw [List.filterMap_map]
        exact List.filterMap_some
      unfold samplesOf at *
      rw [List.flatMap_cons, List.flatMap_cons, List.filterMap_append, hsamples, ih]

/-- The metrics a family may have samples of: its own name, or for a histogram the three names made of it. -/
def Family.names (f : Family) : List String :=
  if f.kind = .histogram then [f.metric ++ "_bucket", f.metric ++ "_sum", f.metric ++ "_count"]
  else [f.metric]

structure Family.WellFormed (f : Family) : Prop where
  metric : IsName f.metric
  help : IsText f.help
  samples : ∀ s ∈ f.samples, s.WellFormed
  named : ∀ s ∈ f.samples, s.series.metric ∈ f.names
  distinct : (f.samples.map Sample.series).Nodup

theorem Family.WellFormed.lines {f : Family} (h : f.WellFormed) : ∀ l ∈ f.lines, l.WellFormed := by
  intro l hl
  rcases List.mem_cons.1 hl with rfl | hl
  · exact ⟨h.metric, h.help⟩
  · rcases List.mem_cons.1 hl with rfl | hl
    · exact h.metric
    · rcases List.mem_map.1 hl with ⟨s, hs, rfl⟩
      exact h.samples s hs

/-- What a reader may rely on: no two families share a metric, so every sample has its type announced
right before it, and no series occurs twice. -/
structure WellFormed (fs : List Family) : Prop where
  families : ∀ f ∈ fs, f.WellFormed
  names : (fs.flatMap Family.names).Nodup

theorem WellFormed.lines {fs : List Family} (h : WellFormed fs) :
    ∀ l ∈ fs.flatMap Family.lines, l.WellFormed := by
  intro l hl
  rcases List.mem_flatMap.1 hl with ⟨f, hf, hl⟩
  exact (h.families f hf).lines l hl

theorem WellFormed.distinct {fs : List Family} (h : WellFormed fs) :
    ((fs.flatMap Family.samples).map Sample.series).Nodup := by
  rcases h with ⟨hfamilies, hnames⟩
  rw [List.map_flatMap, List.nodup_flatMap]
  refine ⟨fun f hf => (hfamilies f hf).distinct, ?_⟩
  refine (List.nodup_flatMap.1 hnames).2.imp_of_mem ?_
  intro f g hf hg hdisjoint series hfseries hgseries
  rcases List.mem_map.1 hfseries with ⟨s, hs, rfl⟩
  rcases List.mem_map.1 hgseries with ⟨t, ht, heq⟩
  exact hdisjoint ((hfamilies f hf).named s hs) (heq ▸ (hfamilies g hg).named t ht)

/-- A page has a control character, besides the newlines, if and only if a label has it. -/
theorem WellFormed.mem_render_iff {fs : List Family} (h : WellFormed fs) {c : Char} (hc : c.toNat < 32)
    (hline : c ≠ '\n') :
    c ∈ render (fs.flatMap Family.lines) ↔
      ∃ s ∈ fs.flatMap Family.samples, ∃ p ∈ s.series.labels, c ∈ p.2.toList := by
  rw [← samplesOf_lines]
  unfold render samplesOf
  rw [List.mem_flatMap]
  constructor
  · rintro ⟨l, hl, hmem⟩
    rcases List.mem_append.1 hmem with hmem | hmem
    · rcases (control_mem_text hc (h.lines l hl)).1 hmem with ⟨s, rfl, p, hp, hlabel⟩
      exact ⟨s, List.mem_filterMap.2 ⟨_, hl, rfl⟩, p, hp, (mem_escape_iff hc hline _).1 hlabel⟩
    · exact absurd (List.mem_singleton.1 hmem) hline
  · rintro ⟨s, hs, p, hp, hlabel⟩
    rcases List.mem_filterMap.1 hs with ⟨l, hl, hsome⟩
    cases l with
    | help m t => cases hsome
    | type m k => cases hsome
    | sample t =>
        cases hsome
        refine ⟨_, hl, List.mem_append.2 (Or.inl ?_)⟩
        exact (control_mem_text hc (h.lines _ hl)).2 ⟨s, rfl, p, hp, (mem_escape_iff hc hline _).2 hlabel⟩

theorem WellFormed.read_render {fs : List Family} (h : WellFormed fs) :
    read (render (fs.flatMap Family.lines)) = some (fs.flatMap Family.lines) :=
  Exposition.read_render h.lines

theorem WellFormed.valueOf {fs : List Family} (h : WellFormed fs) {s : Sample}
    (hs : s ∈ fs.flatMap Family.samples) : valueOf (fs.flatMap Family.lines) s.series = some s.value := by
  refine valueOf_of_mem ?_ ?_
  · rw [samplesOf_lines]
    exact h.distinct
  · rw [samplesOf_lines]
    exact hs

end Exposition
end Foundation
end GatewayEdge
