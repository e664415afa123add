import GatewayEdge.Foundation.Url
import GatewayEdge.Foundation.Utf8Encode

/-!
# Octets — a text as a reader sees it that goes byte by byte

Each byte of a text is taken as a character of its own.  ASCII characters stay as they are and all others
become characters beyond ASCII, so what is built of ASCII delimiters reads the same, and a text may be cut
after any byte.
-/

namespace GatewayEdge
namespace Foundation

/-- Each byte as a character of its own. -/
def latin (bytes : Bytes) : List Char := bytes.map fun b => Char.ofNat b.toNat

/-- The bytes of characters. -/
def octets (cs : List Char) : List Char := cs.flatMap fun c => latin (String.utf8EncodeChar c)

theorem octets_append (xs ys : List Char) : octets (xs ++ ys) = octets xs ++ octets ys := List.flatMap_append

theorem octets_cons (c : Char) (cs : List Char) :
    octets (c :: cs) = latin (String.utf8EncodeChar c) ++ octets cs := List.flatMap_cons

theorem latin_strBytes (s : String) : latin (strBytes s) = octets s.toList := by
  unfold latin octets
  rw [strBytes_eq, List.map_flatMap]
  rfl

theorem toNat_latin (b : UInt8) : (Char.ofNat b.toNat).toNat = b.toNat :=
  Utf8.toNat_ofNat_of_valid (Or.inl (Nat.lt_trans b.toNat_lt (by decide)))

/-- A byte of a character is the character itself, or no ASCII character. -/
theorem mem_latin {c o : Char} (h : o ∈ latin (String.utf8EncodeChar c)) : o = c ∨ 0x80 ≤ o.toNat := by
  rcases List.mem_map.1 h with ⟨b, hb, ho⟩
  have hnat : o.toNat = b.toNat := ho ▸ toNat_latin b
  by_cases hascii : o.toNat < 0x80
  · have hbyte : UInt8.ofNat o.toNat = b := by rw [hnat, UInt8.ofNat_toNat]
    exact Or.inl (ascii_mem_utf8EncodeChar hascii (hbyte ▸ hb)).symm
  · exact Or.inr (Nat.le_of_not_lt hascii)

theorem mem_octets {cs : List Char} {o : Char} (h : o ∈ octets cs) : o ∈ cs ∨ 0x80 ≤ o.toNat := by
  rcases List.mem_flatMap.1 h with ⟨c, hc, ho⟩
  rcases mem_latin ho with rfl | hhigh
  · exact Or.inl hc
  · exact Or.inr hhigh

theorem octets_of_ascii {cs : List Char} (h : ∀ c ∈ cs, c.toNat < 0x80) : octets cs = cs := by
  induction cs with
  | nil => rfl
  | cons c cs ih =>
      have hval : c.val.toNat < 0x80 := h c List.mem_cons_self
      have hsize : c.utf8Size = 1 := by
        rw [Char.utf8Size_eq_one_iff, UInt32.le_iff_toNat_le]
        exact Nat.le_of_lt_succ hval
      have hbyte : c.val.toUInt8.toNat = c.toNat := by
        rw [UInt32.toNat_toUInt8]
        exact Nat.mod_eq_of_lt (Nat.lt_trans hval (by decide))
      have hone : latin [c.val.toUInt8] = [c] := by
        unfold latin
        rw [List.map_singleton, hbyte, Char.ofNat_toNat]
      rw [octets_cons, ih fun d hd => h d (List.mem_cons_of_mem _ hd), String.utf8EncodeChar_eq_singleton hsize,
        hone]
      rfl

theorem octets_ne_nil {cs : List Char} (h : cs ≠ []) : octets cs ≠ [] := by
  rcases List.exists_mem_of_ne_nil _ h with ⟨c, hc⟩
  intro hnil
  exact String.utf8EncodeChar_ne_nil (List.map_eq_nil_iff.1 (List.flatMap_eq_nil_iff.1 hnil c hc))

/-! ## The bytes of a host -/

namespace Url

/-- No delimiter is beyond ASCII. -/
theorem hostChar_of_high {c : Char} (h : 0x80 ≤ c.toNat) : hostChar c = true := by
  have hdelimiter : c ∉ delimiters := by
    intro hmem
    have hascii : (delimiters.all fun d => d.toNat < 0x80) = true := by decide
    have hlow : c.toNat < 0x80 := of_decide_eq_true (List.all_eq_true.1 hascii c hmem)
    exact absurd hlow (Nat.not_lt.2 h)
  have hspace : 0x20 < c.toNat := by omega
  have hdelete : c.toNat ≠ 0x7F := by omega
  simp [hostChar, hdelimiter, hspace, hdelete]

/-- Visible and ASCII. -/
theorem range_of_literalChar {c : Char} (h : literalChar c = true) : 0x20 < c.toNat ∧ c.toNat < 0x80 := by
  unfold literalChar at h
  simp only [Bool.or_eq_true, beq_iff_eq] at h
  rcases h with (rfl | rfl) | hhex
  · decide
  · decide
  · rcases Option.isSome_iff_exists.1 hhex with ⟨n, hn⟩
    rcases hexValue_eq_some hn with hrange | hrange | hrange <;> omega

theorem range_of_isDigit {c : Char} (h : c.isDigit = true) : 0x20 < c.toNat ∧ c.toNat < 0x80 := by
  have hrange : 48 ≤ c.toNat ∧ c.toNat ≤ 57 := by simpa [Char.isDigit, UInt32.le_iff_toNat_le] using h
  omega

/-- Everything in a host is visible. -/
theorem Host.visible (host : Host) : ∀ c ∈ host.text, 0x20 < c.toNat := by
  intro c hc
  rcases host.wellFormed with ⟨-, hchars⟩ | ⟨inner, htext, hchars⟩
  · have hchar := hchars c hc
    simp only [hostChar, Bool.and_eq_true, decide_eq_true_eq] at hchar
    exact hchar.1.2
  · rw [htext] at hc
    rcases List.mem_cons.1 hc with rfl | hc
    · decide
    · rcases List.mem_append.1 hc with hc | hc
      · exact (range_of_literalChar (hchars c hc)).1
      · rw [List.mem_singleton.1 hc]
        decide

/-- A port suffix is visible and ASCII. -/
theorem range_portSuffix (port : Option PortText) : ∀ c ∈ portSuffix port, 0x20 < c.toNat ∧ c.toNat < 0x80 := by
  intro c hc
  cases port with
  | none => cases hc
  | some port =>
      rcases List.mem_cons.1 hc with rfl | hc
      · decide
      · exact range_of_isDigit (port.isDigit c hc)

/-- The bytes of a host are a host. -/
def Host.octets (host : Host) : Host where
  text := Foundation.octets host.text
  wellFormed := by
    rcases host.wellFormed with ⟨hne, hchars⟩ | ⟨inner, htext, hchars⟩
    · refine Or.inl ⟨octets_ne_nil hne, fun o ho => ?_⟩
      rcases mem_octets ho with hmem | hhigh
      · exact hchars o hmem
      · exact hostChar_of_high hhigh
    · refine Or.inr ⟨inner, ?_, hchars⟩
      rw [htext]
      apply octets_of_ascii
      intro c hc
      rcases List.mem_cons.1 hc with rfl | hc
      · decide
      · rcases List.mem_append.1 hc with hc | hc
        · exact (range_of_literalChar (hchars c hc)).2
        · rw [List.mem_singleton.1 hc]
          decide

theorem Scheme.range_text (scheme : Scheme) : ∀ c ∈ scheme.text, 0x20 < c.toNat ∧ c.toNat < 0x80 := by
  have hall : (scheme.text.all fun c => 0x20 < c.toNat ∧ c.toNat < 0x80) = true := by cases scheme <;> decide
  exact fun c hc => of_decide_eq_true (List.all_eq_true.1 hall c hc)

theorem Scheme.octets_text (scheme : Scheme) : octets scheme.text = scheme.text :=
  octets_of_ascii fun c hc => (scheme.range_text c hc).2

theorem octets_portSuffix (port : Option PortText) : octets (portSuffix port) = portSuffix port :=
  octets_of_ascii fun c hc => (range_portSuffix port c hc).2

end Url

end Foundation
end GatewayEdge
