import GatewayEdge.Foundation.Utf8Cut
import GatewayEdge.Gates
import GatewayEdge.UriInspection

/-!
# BodyInspection — which part of a body the WAF scans

The scan window is 8192 bytes of the decoded body, while the bridge and the tests speak of the bytes a client
sends.  Lossy decoding turns one invalid byte into three, so the window may end before 8192 raw bytes do.
`body_entry_blocked_iff` says when an entry within them is found all the same.
-/

namespace GatewayEdge
namespace BodyInspection

open Foundation
open Foundation.Utf8 (pieces Ascii asciiChar)
open Gateway
open Waf hiding Shm
open UriInspection (Blocks)

/-! ## Truncation -/

@[simp] theorem byteLen_nil : byteLen [] = 0 := rfl

@[simp] theorem byteLen_cons (c : Char) (cs : List Char) : byteLen (c :: cs) = c.utf8Size + byteLen cs := by
  simp [byteLen]

@[simp] theorem byteLen_append (l r : List Char) : byteLen (l ++ r) = byteLen l + byteLen r := by
  simp [byteLen]

/-- A boundary is the length of some beginning of the text. -/
theorem isCharBoundary_iff {s : List Char} {n : Nat} :
    isCharBoundary s n = true ↔ ∃ l, l <+: s ∧ byteLen l = n := by
  induction s generalizing n with
  | nil =>
      cases n with
      | zero => simp [isCharBoundary]
      | succ n => simp [isCharBoundary]
  | cons c cs ih =>
      have hc := c.utf8Size_pos
      cases n with
      | zero => exact ⟨fun _ => ⟨[], List.nil_prefix, rfl⟩, fun _ => rfl⟩
      | succ n =>
          rw [isCharBoundary, Bool.and_eq_true, decide_eq_true_eq, ih]
          constructor
          · rintro ⟨hle, l, hl, hlen⟩
            refine ⟨c :: l, List.cons_prefix_cons.2 ⟨rfl, hl⟩, ?_⟩
            rw [byteLen_cons]
            omega
          · rintro ⟨l, hl, hlen⟩
            rcases l with _ | ⟨d, l⟩
            · simp at hlen
            · rcases List.cons_prefix_cons.1 hl with ⟨rfl, hl'⟩
              rw [byteLen_cons] at hlen
              exact ⟨by omega, l, hl', by omega⟩

/-- The backward loop stops at the last boundary that is not behind the limit. -/
theorem walkBack_spec (s : List Char) (max : Nat) :
    walkBack s max ≤ max ∧ isCharBoundary s (walkBack s max) = true ∧
      ∀ n ≤ max, isCharBoundary s n = true → n ≤ walkBack s max := by
  induction max with
  | zero =>
      refine ⟨le_rfl, isCharBoundary_iff.2 ⟨[], List.nil_prefix, rfl⟩, fun n hn _ => hn⟩
  | succ max ih =>
      unfold walkBack
      by_cases hbound : isCharBoundary s (max + 1) = true
      · rw [if_pos hbound]
        exact ⟨le_rfl, hbound, fun n hn _ => hn⟩
      · rw [if_neg hbound]
        rcases ih with ⟨hle, hwalk, hlast⟩
        refine ⟨Nat.le_succ_of_le hle, hwalk, fun n hn hbn => ?_⟩
        rcases Nat.lt_or_eq_of_le hn with hlt | rfl
        · exact hlast n (by omega) hbn
        · exact absurd hbn hbound

theorem sliceTo_zero (s : List Char) : sliceTo s 0 = [] := by
  cases s with
  | nil => rfl
  | cons c cs =>
      have hc := c.utf8Size_pos
      rw [sliceTo, if_neg (by omega)]

theorem sliceTo_byteLen {l s : List Char} (h : l <+: s) : sliceTo s (byteLen l) = l := by
  induction l generalizing s with
  | nil => exact sliceTo_zero s
  | cons c l ih =>
      rcases s with _ | ⟨d, s⟩
      · cases List.prefix_nil.1 h
      · rcases List.cons_prefix_cons.1 h with ⟨rfl, hl⟩
        rw [byteLen_cons, sliceTo, if_pos (by omega), Nat.add_sub_cancel_left, ih hl]

theorem byteLen_le_of_prefix {l r : List Char} (h : l <+: r) : byteLen l ≤ byteLen r := by
  rcases h with ⟨t, rfl⟩
  simp

/-- Of two beginnings of a text the one with fewer bytes is the beginning of the other. -/
theorem prefix_of_byteLen_le {l r s : List Char} (hl : l <+: s) (hr : r <+: s)
    (h : byteLen l ≤ byteLen r) : l <+: r := by
  rcases List.prefix_or_prefix_of_prefix hl hr with hlr | ⟨t, rfl⟩
  · exact hlr
  · -- What `l` has more than `r` takes no bytes.
    rcases t with _ | ⟨c, t⟩
    · rw [List.append_nil]
    · have hc := c.utf8Size_pos
      simp at h
      omega

/-- The truncation is the longest beginning of the text that fits. -/
theorem truncate_spec (s : List Char) (max : Nat) :
    truncateOnCharBoundary s max <+: s ∧ byteLen (truncateOnCharBoundary s max) ≤ max ∧
      ∀ l, l <+: s → byteLen l ≤ max → l <+: truncateOnCharBoundary s max := by
  unfold truncateOnCharBoundary
  by_cases hfits : byteLen s ≤ max
  · rw [if_pos hfits]
    exact ⟨List.prefix_rfl, hfits, fun l hl _ => hl⟩
  · rw [if_neg hfits]
    rcases walkBack_spec s max with ⟨hle, hwalk, hlast⟩
    rcases isCharBoundary_iff.1 hwalk with ⟨r, hr, hlen⟩
    rw [← hlen, sliceTo_byteLen hr]
    refine ⟨hr, hlen ▸ hle, fun l hl hmax => ?_⟩
    have hbound := hlast (byteLen l) hmax (isCharBoundary_iff.2 ⟨l, hl, rfl⟩)
    exact prefix_of_byteLen_le hl hr (hlen ▸ hbound)

/-! ## Entries in bytes -/

/-- `u8::to_ascii_lowercase`. -/
def lowerByte (b : UInt8) : UInt8 := if 65 ≤ b.toNat ∧ b.toNat ≤ 90 then b + 32 else b

/-- Some entry occurs in the bytes, up to ASCII case. -/
def Carries (bs : Bytes) : Prop :=
  ∃ p ∈ injectionPatterns, (strBytes p).map lowerByte <:+: bs.map lowerByte

theorem lowerByte_toNat (b : UInt8) :
    (lowerByte b).toNat = if 65 ≤ b.toNat ∧ b.toNat ≤ 90 then b.toNat + 32 else b.toNat := by
  unfold lowerByte
  split
  · rw [UInt8.toNat_add]
    change (b.toNat + 32) % 256 = b.toNat + 32
    omega
  · rfl

theorem lowerByte_ascii_iff {b : UInt8} : (lowerByte b).toNat < 0x80 ↔ b.toNat < 0x80 := by
  rw [lowerByte_toNat]
  split <;> omega

/-- Folding the case commutes with reading the byte as a character. -/
theorem asciiChar_lowerByte {b : UInt8} (h : b.toNat < 0x80) :
    asciiChar (lowerByte b) = (asciiChar b).toLower := by
  have hall : ∀ n : Fin 128, Char.ofNat (if 65 ≤ n.val ∧ n.val ≤ 90 then n.val + 32 else n.val) =
      (Char.ofNat n.val).toLower := by
    decide
  unfold asciiChar
  rw [lowerByte_toNat]
  exact hall ⟨b.toNat, h⟩

theorem toLower_ascii {c : Char} (h : c.toLower.toNat < 0x80) : c.toNat < 0x80 := by
  by_cases hupper : c.val ≥ 'A'.val ∧ c.val ≤ 'Z'.val
  · have hle : c.toNat ≤ 90 := UInt32.le_iff_toNat_le.1 hupper.2
    omega
  · have hsame : c.toLower = c := by
      unfold Char.toLower
      exact dif_neg hupper
    rwa [hsame] at h

theorem map_asciiChar_lowerByte {bs : Bytes} (h : Ascii bs) :
    (bs.map lowerByte).map asciiChar = (bs.map asciiChar).map Char.toLower := by
  rw [List.map_map, List.map_map]
  exact List.map_congr_left fun b hb => asciiChar_lowerByte (h b hb)

theorem map_asciiChar_injective {xs ys : Bytes} (hxs : Ascii xs) (hys : Ascii ys)
    (h : xs.map asciiChar = ys.map asciiChar) : xs = ys := by
  have hnat : ∀ {zs : Bytes}, Ascii zs → (zs.map asciiChar).map Char.toNat = zs.map UInt8.toNat := by
    intro zs hzs
    rw [List.map_map]
    exact List.map_congr_left fun b hb => Utf8.asciiChar_toNat (hzs b hb)
  have hnats := congrArg (List.map Char.toNat) h
  rw [hnat hxs, hnat hys] at hnats
  exact List.map_injective_iff.2 (fun a b hab => UInt8.toNat_inj.1 hab) hnats

theorem ascii_map_lowerByte {bs : Bytes} : Ascii (bs.map lowerByte) ↔ Ascii bs := by
  constructor
  · intro h b hb
    exact lowerByte_ascii_iff.1 (h _ (List.mem_map_of_mem hb))
  · intro h b hb
    rcases List.mem_map.1 hb with ⟨d, hd, rfl⟩
    exact lowerByte_ascii_iff.2 (h d hd)

/-- Each entry is a run of ASCII characters, and its bytes are these. -/
structure AsciiEntry (p : String) : Prop where
  nonempty : strBytes p ≠ []
  ascii : Ascii (strBytes p)
  chars : (strBytes p).map asciiChar = p.toList

/-- A list whose strings pass this test consists of such entries. -/
theorem asciiEntry_of_all {patterns : List String}
    (hall : (patterns.all fun p => !(strBytes p).isEmpty &&
      (strBytes p).all (fun b => b.toNat < 0x80) && (strBytes p).map asciiChar == p.toList) = true)
    {p : String} (hp : p ∈ patterns) : AsciiEntry p := by
  have h := List.all_eq_true.1 hall p hp
  simp only [Bool.and_eq_true, Bool.not_eq_true', List.isEmpty_eq_false_iff, List.all_eq_true,
    decide_eq_true_eq, beq_iff_eq] at h
  exact { nonempty := h.1.1, ascii := h.1.2, chars := h.2 }

theorem asciiEntry_of_mem {p : String} (hp : p ∈ injectionPatterns) : AsciiEntry p :=
  asciiEntry_of_all (by decide +kernel) hp

/-- Bytes that fold to an entry are read as characters that do. -/
theorem folds_iff {p : String} (hp : AsciiEntry p) {bs : Bytes} (hbs : Ascii bs) :
    bs.map lowerByte = (strBytes p).map lowerByte ↔
      (bs.map asciiChar).map Char.toLower = p.toList.map Char.toLower := by
  rw [← hp.chars, ← map_asciiChar_lowerByte hbs, ← map_asciiChar_lowerByte hp.ascii]
  constructor
  · intro h
    rw [h]
  · exact map_asciiChar_injective (ascii_map_lowerByte.2 hbs) (ascii_map_lowerByte.2 hp.ascii)

/-! ## The scan of the decoded body -/

/-- What the scan of a body reads. -/
def decodedText (bs : Bytes) : List Char := (fromUtf8Lossy bs).toList

/-- How many bytes the body has once it is decoded. -/
def decodedLen (bs : Bytes) : Nat := byteLen (decodedText bs)

theorem decodedText_eq (bs : Bytes) : decodedText bs = (pieces bs).map fun piece => piece.getD '\uFFFD' := by
  simp [decodedText, fromUtf8Lossy]

/-- In front of a run of ASCII bytes the text is decoded apart. -/
theorem decodedText_append (a : Bytes) {bs : Bytes} (hbs : Ascii bs) (hne : bs ≠ []) (rest : Bytes) :
    decodedText (a ++ (bs ++ rest)) = decodedText a ++ (bs.map asciiChar ++ decodedText rest) := by
  rw [decodedText_eq, decodedText_eq, decodedText_eq, Utf8.pieces_append a (hbs.startsAscii hne rest),
    Utf8.pieces_ascii_append hbs, List.map_append, List.map_append, List.map_map]
  congr 2
  exact (List.map_congr_left fun b _ => rfl).trans (List.map_id _)

/-- ASCII bytes keep their length. -/
theorem decodedLen_ascii {bs : Bytes} (hbs : Ascii bs) : decodedLen bs = bs.length := by
  induction bs with
  | nil => rfl
  | cons b bs ih =>
      have hb : b.toNat < 0x80 := hbs b List.mem_cons_self
      have hhead : Ascii [b] := fun x hx => List.mem_singleton.1 hx ▸ hb
      have hsize : (asciiChar b).utf8Size = 1 := by
        rw [Char.utf8Size_eq_one_iff]
        have hchar : (asciiChar b).toNat < 0x80 := (Utf8.asciiChar_toNat hb).symm ▸ hb
        exact UInt32.le_iff_toNat_le.2 (Nat.le_of_lt_succ hchar)
      have htext := decodedText_append [] hhead (List.cons_ne_nil _ _) bs
      change decodedText (b :: bs) = asciiChar b :: decodedText bs at htext
      have hrest : byteLen (decodedText bs) = bs.length := ih fun x hx => hbs x (List.mem_cons_of_mem _ hx)
      rw [decodedLen, htext, byteLen_cons, hsize, hrest, List.length_cons, Nat.add_comm]

/-- Characters that come out of the decoder as ASCII were no ill-formed pieces. -/
theorem eq_map_some_of_ascii {found : List (Option Char)} {run : List Char}
    (h : found.map (fun piece => piece.getD '\uFFFD') = run) (hrun : ∀ c ∈ run, c.toNat < 0x80) :
    found = run.map some := by
  subst h
  induction found with
  | nil => rfl
  | cons piece found ih =>
      rcases piece with _ | c
      · have hbad := hrun '\uFFFD' (by simp)
        exact absurd hbad (by decide)
      · rw [List.map_cons, List.map_cons, ← ih fun c hc => hrun c (List.mem_cons_of_mem _ hc)]
        rfl

/-- What folds to an entry consists of ASCII characters. -/
theorem ascii_of_folds {p : String} (hp : AsciiEntry p) {run : List Char}
    (h : run.map Char.toLower = p.toList.map Char.toLower) : ∀ c ∈ run, c.toNat < 0x80 := by
  intro c hc
  have hmem : c.toLower ∈ p.toList.map Char.toLower := h ▸ List.mem_map_of_mem hc
  rw [← hp.chars, ← map_asciiChar_lowerByte hp.ascii] at hmem
  rcases List.mem_map.1 hmem with ⟨b, hb, hchar⟩
  have hascii := ascii_map_lowerByte.2 hp.ascii b hb
  refine toLower_ascii ?_
  rw [← hchar, Utf8.asciiChar_toNat hascii]
  exact hascii

/-- A beginning of the body that carries an entry and fits into the window once decoded. -/
def FoundWithin (window : Nat) (body : Bytes) : Prop :=
  ∃ n, Carries (body.take n) ∧ decodedLen (body.take n) ≤ window

theorem matchesAny_iff {text : List Char} :
    matchesAny injectionPatterns text = true ↔
      ∃ p ∈ injectionPatterns, p.toList.map Char.toLower <:+: text.map Char.toLower :=
  UriInspection.malicious_iff

/-- What the truncated text shows, a beginning of the body carries. -/
theorem foundWithin_of_scan {window : Nat} {body : Bytes}
    (h : matchesAny injectionPatterns (truncateOnCharBoundary (decodedText body) window) = true) :
    FoundWithin window body := by
  rcases truncate_spec (decodedText body) window with ⟨⟨cut, hcut⟩, hlen, -⟩
  rcases matchesAny_iff.1 h with ⟨p, hp, start, rest, hsplit⟩
  have hentry := asciiEntry_of_mem hp
  rcases List.map_eq_append_iff.1 hsplit.symm with ⟨lq, r, htext, hlq, -⟩
  rcases List.map_eq_append_iff.1 hlq with ⟨l, q, rfl, -, hq⟩
  have hascii := ascii_of_folds hentry hq
  have hne : q ≠ [] := by
    rintro rfl
    have hlist : p.toList = [] := List.map_eq_nil_iff.1 hq.symm
    exact hentry.nonempty (List.map_eq_nil_iff.1 (hentry.chars.trans hlist))
  -- The occurrence `q` in the text is a run of bytes in the body.
  have hwhole : (pieces body).map (fun piece => piece.getD '\uFFFD') = l ++ q ++ (r ++ cut) := by
    rw [← decodedText_eq, ← hcut, htext, List.append_assoc (l ++ q)]
  rcases List.map_eq_append_iff.1 hwhole with ⟨before, after, hpieces, hbefore, -⟩
  rcases List.map_eq_append_iff.1 hbefore with ⟨first, found, rfl, hfirst, hfound⟩
  rw [eq_map_some_of_ascii hfound hascii] at hpieces
  rcases Utf8.exists_of_pieces_eq_run_append hpieces hne hascii with
    ⟨a, bs, tail, rfl, ha, hbs, hrun, -⟩
  have hnil : bs ≠ [] := by
    rintro rfl
    exact hne hrun.symm
  refine ⟨(a ++ bs).length, ?_, ?_⟩
  · rw [List.take_left]
    refine ⟨p, hp, a.map lowerByte, [], ?_⟩
    rw [List.map_append, (folds_iff hentry hbs).2 (hrun ▸ hq), List.append_nil]
  · have hdecoded := decodedText_append a hbs hnil []
    have htext_a : decodedText a = l := by rw [decodedText_eq, ha, hfirst]
    rw [List.append_nil, htext_a, hrun] at hdecoded
    rw [List.take_left]
    calc
      decodedLen (a ++ bs) = byteLen (l ++ q) := by
        rw [decodedLen, hdecoded]
        exact congrArg byteLen (congrArg (l ++ ·) (List.append_nil q))
      _ ≤ byteLen (truncateOnCharBoundary (decodedText (a ++ bs ++ tail)) window) := by
        rw [htext]
        exact byteLen_le_of_prefix (List.prefix_append _ _)
      _ ≤ window := hlen

/-- Bytes that carry an entry up to case, split around it. -/
theorem exists_occurrence {p : String} (hentry : AsciiEntry p) {bs : Bytes}
    (hoccurs : (strBytes p).map lowerByte <:+: bs.map lowerByte) :
    ∃ a q c, bs = a ++ (q ++ c) ∧ q.map lowerByte = (strBytes p).map lowerByte ∧ Ascii q ∧ q ≠ [] := by
  rcases hoccurs with ⟨start, rest, hsplit⟩
  rcases List.map_eq_append_iff.1 hsplit.symm with ⟨aq, c, hbs, haq, -⟩
  rcases List.map_eq_append_iff.1 haq with ⟨a, q, rfl, -, hq⟩
  have hascii : Ascii q := ascii_map_lowerByte.1 (hq ▸ ascii_map_lowerByte.2 hentry.ascii)
  have hne : q ≠ [] := by
    rintro rfl
    exact hentry.nonempty (List.map_eq_nil_iff.1 hq.symm)
  exact ⟨a, q, c, by rw [hbs, List.append_assoc], hq, hascii, hne⟩

/-- What a beginning of the bytes carries, the truncated text shows, if that beginning still fits once it is
decoded. -/
theorem scan_of_occurrence {patterns : List String} (hentries : ∀ p ∈ patterns, AsciiEntry p)
    {window n : Nat} {body : Bytes} {p : String} (hp : p ∈ patterns)
    (hoccurs : (strBytes p).map lowerByte <:+: (body.take n).map lowerByte)
    (hfits : decodedLen (body.take n) ≤ window) :
    matchesAny patterns (truncateOnCharBoundary (decodedText body) window) = true := by
  have hentry := hentries p hp
  rcases exists_occurrence hentry hoccurs with ⟨a, q, c, htake, hq, hascii, hne⟩
  have hbody : body = a ++ (q ++ (c ++ body.drop n)) := by
    rw [← List.append_assoc q, ← List.append_assoc a, ← htake, List.take_append_drop]
  -- The text up to the end of the occurrence is a beginning that fits.
  have hbeginning : decodedText a ++ q.map asciiChar <+: decodedText body := by
    rw [hbody, decodedText_append a hascii hne, ← List.append_assoc]
    exact List.prefix_append _ _
  have hshort : byteLen (decodedText a ++ q.map asciiChar) ≤ window := by
    calc
      byteLen (decodedText a ++ q.map asciiChar) ≤ decodedLen (body.take n) := by
        rw [decodedLen, htake, decodedText_append a hascii hne, ← List.append_assoc]
        exact byteLen_le_of_prefix (List.prefix_append _ _)
      _ ≤ window := hfits
  rcases (truncate_spec (decodedText body) window).2.2 _ hbeginning hshort with ⟨tail, htail⟩
  refine List.any_eq_true.2 ⟨p, hp, decide_eq_true ?_⟩
  refine ⟨(decodedText a).map Char.toLower, tail.map Char.toLower, ?_⟩
  rw [← htail, List.map_append, List.map_append, (folds_iff hentry hascii).1 hq]

theorem scan_of_foundWithin {window : Nat} {body : Bytes} (h : FoundWithin window body) :
    matchesAny injectionPatterns (truncateOnCharBoundary (decodedText body) window) = true := by
  rcases h with ⟨n, ⟨p, hp, hoccurs⟩, hfits⟩
  exact scan_of_occurrence (fun _ => asciiEntry_of_mem) hp hoccurs hfits

/-- The body scan hits exactly what some beginning of the body shows within the window. -/
theorem scan_iff (window : Nat) (body : Bytes) :
    matchesAny injectionPatterns (truncateOnCharBoundary (decodedText body) window) = true ↔
      FoundWithin window body :=
  ⟨foundWithin_of_scan, scan_of_foundWithin⟩

/-! ## The body inspection -/

/-- Something other than the body blocks the request. -/
def OtherwiseBlocked (ctx : Waf.Context) (uri authHeader userAgent clientIp : String) (shm : Waf.Shm) :
    Prop :=
  maxUriLen < uri.utf8ByteSize ∨ maxAuthHeaderLen < authHeader.utf8ByteSize ∨
    matchesAny injectionPatterns (urlDecodeRecursive uri.toList) = true ∨
    matchesAny botPatterns (truncateOnCharBoundary userAgent.toList maxUaLen) = true ∨
    authHeader = "" ∧ clientIp ≠ "" ∧ (ipRateExceeded ctx clientIp shm).2 = true

/-- A text in which something is found is not empty. -/
theorem ne_empty_of_scan {window : Nat} {body : Bytes}
    (h : matchesAny injectionPatterns (truncateOnCharBoundary (decodedText body) window) = true) :
    fromUtf8Lossy body ≠ "" := by
  intro hempty
  have htext : decodedText body = [] := by
    unfold decodedText
    rw [hempty]
    rfl
  rcases matchesAny_iff.1 h with ⟨p, hp, hinfix⟩
  have hnil : truncateOnCharBoundary (decodedText body) window = [] := by
    rw [htext]
    exact List.prefix_nil.1 (truncate_spec [] window).1
  rw [hnil, List.map_nil, List.infix_nil, List.map_eq_nil_iff] at hinfix
  have hentry := asciiEntry_of_mem hp
  exact hentry.nonempty (List.map_eq_nil_iff.1 (hentry.chars.trans hinfix))

/-- An inspection blocks for the body exactly when a beginning of it shows an entry in the window. -/
theorem blocks_iff (ctx : Waf.Context) (uri authHeader userAgent clientIp : String) (body : Bytes)
    (shm : Waf.Shm) :
    Blocks ctx uri authHeader userAgent (fromUtf8Lossy body) clientIp shm ↔
      FoundWithin maxBodyScanLen body ∨ OtherwiseBlocked ctx uri authHeader userAgent clientIp shm := by
  have hbody : (fromUtf8Lossy body ≠ "" ∧ matchesAny injectionPatterns
      (truncateOnCharBoundary (fromUtf8Lossy body).toList maxBodyScanLen) = true) ↔
      FoundWithin maxBodyScanLen body := by
    rw [← scan_iff]
    exact ⟨fun h => h.2, fun h => ⟨ne_empty_of_scan h, h⟩⟩
  rw [UriInspection.blocks_iff]
  unfold UriInspection.GuardBlocks UriInspection.Malicious OtherwiseBlocked
  rw [hbody]
  grind

/-- A call whose body carries an entry within the raw scan window is blocked if and only if some beginning of
the body that carries one still fits into the window once it is decoded, or something else blocks the call. -/
theorem body_entry_blocked_iff (p : Platform) (w : World) (a : Args) (out : OutBuffers) (body : Bytes) :
    let call := { a with body := some body }
    let req := call.request
    (Carries (body.take maxBodyScanLen) →
        (processRequest p w call out).status ≠ 200 ∧
          Blocks (w.wafContext p) req.path req.authHeader req.userAgent req.body req.clientIp
            w.shm.waf) ↔
      (Carries (body.take maxBodyScanLen) →
        FoundWithin maxBodyScanLen body ∨
          OtherwiseBlocked (w.wafContext p) req.path req.authHeader req.userAgent req.clientIp
            w.shm.waf) := by
  intro call req
  have hiff := blocks_iff (w.wafContext p) req.path req.authHeader req.userAgent req.clientIp body w.shm.waf
  change Blocks (w.wafContext p) req.path req.authHeader req.userAgent req.body req.clientIp w.shm.waf ↔ _
    at hiff
  -- A call that ends with 200 was let through by the inspection.
  have hstatus : Blocks (w.wafContext p) req.path req.authHeader req.userAgent req.body req.clientIp
      w.shm.waf → (processRequest p w call out).status ≠ 200 := by
    rintro ⟨status, reason, hblock⟩ h
    have hallow := ((processRequest_settled p w call out).inspected h).1
    cases hblock.symm.trans hallow
  exact forall_congr' fun _ => ⟨fun h => hiff.1 h.2, fun h => ⟨hstatus (hiff.2 h), hiff.2 h⟩⟩

instance (ctx : Waf.Context) (uri authHeader userAgent clientIp : String) (shm : Waf.Shm) :
    Decidable (OtherwiseBlocked ctx uri authHeader userAgent clientIp shm) :=
  inferInstanceAs (Decidable (_ ∨ _))

/-- Bytes that are nowhere part of a character, then an entry. -/
def paddedBody : Bytes := List.replicate 2800 0xFF ++ strBytes "<script"

def paddedArgs : Args := { anonymousArgs with body := some paddedBody }

theorem pieces_replicate_ff (n : Nat) (rest : Bytes) :
    pieces (List.replicate n 0xFF ++ rest) = List.replicate n none ++ pieces rest := by
  induction n with
  | zero => rfl
  | succ n ih =>
      rw [List.replicate_succ, List.cons_append, Utf8.pieces.eq_def]
      exact congrArg (none :: ·) ih

/-- A byte of which no entry consists can be repeated at will. -/
theorem not_carries_replicate {b : UInt8}
    (hb : (injectionPatterns.all fun p => (strBytes p).any fun x => lowerByte x != lowerByte b) = true)
    (n : Nat) : ¬ Carries (List.replicate n b) := by
  rintro ⟨p, hp, hinfix⟩
  rcases List.any_eq_true.1 (List.all_eq_true.1 hb p hp) with ⟨x, hx, hother⟩
  have hmem := hinfix.subset (List.mem_map_of_mem hx)
  rw [List.map_replicate] at hmem
  exact bne_iff_ne.1 hother (List.eq_of_mem_replicate hmem)

theorem paddedBody_not_found : ¬ FoundWithin maxBodyScanLen paddedBody := by
  rintro ⟨n, hcarries, hfits⟩
  unfold paddedBody at hcarries hfits
  rw [List.take_append, List.length_replicate, List.take_replicate] at hcarries hfits
  by_cases hn : n ≤ 2800
  · rw [Nat.min_eq_left hn, Nat.sub_eq_zero_of_le hn, List.take_zero, List.append_nil] at hcarries
    exact not_carries_replicate (by decide) n hcarries
  · -- The padding alone is longer than the window once it is decoded.
    rw [Nat.min_eq_right (by omega)] at hfits
    unfold decodedLen at hfits
    rw [decodedText_eq, pieces_replicate_ff, List.map_append, List.map_replicate, byteLen_append] at hfits
    have hpadding : byteLen (List.replicate 2800 '\uFFFD') = 2800 * 3 := by
      rw [byteLen, List.map_replicate, List.sum_replicate_nat]
      rfl
    change byteLen (List.replicate 2800 '\uFFFD') + _ ≤ 8192 at hfits
    omega

/-- A body of 2807 bytes that carries an entry is let through, and the request is admitted. -/
theorem padded_entry_admitted :
    Carries (paddedBody.take maxBodyScanLen) ∧
      (requestInspection samplePlatform sampleWorld paddedArgs).2 = .allow ∧
      (processRequest samplePlatform sampleWorld paddedArgs anonymousOut).status = 200 := by
  have hcarries : Carries (paddedBody.take maxBodyScanLen) := by
    refine ⟨"<script", by decide, (List.replicate 2800 0xFF).map lowerByte, [], ?_⟩
    rw [List.take_of_length_le (by decide +kernel), paddedBody, List.map_append, List.append_nil]
  have hallow : (requestInspection samplePlatform sampleWorld paddedArgs).2 = .allow := by
    cases hdecision : (requestInspection samplePlatform sampleWorld paddedArgs).2 with
    | allow => rfl
    | block status reason =>
        have hother : ¬ OtherwiseBlocked (sampleWorld.wafContext samplePlatform) paddedArgs.request.path
            paddedArgs.request.authHeader paddedArgs.request.userAgent paddedArgs.request.clientIp
            sampleWorld.shm.waf := by
          decide +kernel
        rcases (blocks_iff _ _ _ _ _ paddedBody _).1 ⟨status, reason, hdecision⟩ with hfound | hblocked
        · exact absurd hfound paddedBody_not_found
        · exact absurd hblocked hother
  refine ⟨hcarries, hallow, ?_⟩
  rw [processRequest_of_inspected (by decide) (by decide) hallow]
  decide

end BodyInspection
end GatewayEdge
