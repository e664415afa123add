import GatewayEdge.BodyInspection

/-!
# BotDetection — what the bot scan sees of a `User-Agent`

The header crosses the C boundary as bytes.  Bytes that are valid UTF-8 become the text the scan reads, cut
off at 512 bytes on a character boundary; all others become the empty text, in which no bot is found.
-/

namespace GatewayEdge
namespace BotDetection

open Foundation
open Foundation.Utf8 (pieces Ascii asciiChar)
open Gateway
open Waf hiding Shm
open BodyInspection
open UriInspection (Blocks)

/-- Some entry of the bot list occurs in the bytes, up to ASCII case. -/
def NamesBot (bs : Bytes) : Prop :=
  ∃ p ∈ botPatterns, (strBytes p).map lowerByte <:+: bs.map lowerByte

/-! ## Valid headers -/

/-- Valid bytes have no ill-formed piece, and their text is what a lossy reading gives. -/
theorem pieces_of_fromUtf8 {bs : Bytes} {s : String} (h : fromUtf8 bs = some s) :
    pieces bs = s.toList.map some := by
  have hall : ∀ {ps : List (Option Char)} {cs : List Char}, ps.mapM id = some cs → ps = cs.map some := by
    intro ps
    induction ps with
    | nil =>
        intro cs hcs
        cases hcs
        rfl
    | cons piece ps ih =>
        intro cs hcs
        rw [List.mapM_cons] at hcs
        rcases Option.bind_eq_some_iff.1 hcs with ⟨c, hc, hrest⟩
        rcases Option.bind_eq_some_iff.1 hrest with ⟨rest, hps, hout⟩
        cases hout
        rw [ih hps, List.map_cons]
        exact congrArg (· :: rest.map some) hc
  rcases Option.map_eq_some_iff.1 h with ⟨cs, hcs, rfl⟩
  rw [String.toList_ofList]
  exact hall hcs

theorem decodedText_of_fromUtf8 {bs : Bytes} {s : String} (h : fromUtf8 bs = some s) :
    decodedText bs = s.toList := by
  rw [decodedText_eq, pieces_of_fromUtf8 h, List.map_map]
  exact (List.map_congr_left fun c _ => rfl).trans (List.map_id _)

/-- Bytes without an ill-formed piece keep their length. -/
theorem decodedLen_of_valid {bs : Bytes} (hvalid : none ∉ pieces bs) : decodedLen bs = bs.length := by
  rw [← Utf8.length_eq_decoded hvalid, decodedLen, decodedText_eq, byteLen, List.map_map]
  rfl

/-- In a valid header an entry within the first 512 bytes is found: the cut on a character boundary takes no
ASCII character away. -/
theorem scan_of_namesBot {ua : Bytes} {s : String} (hvalid : fromUtf8 ua = some s)
    (hbot : NamesBot (ua.take maxUaLen)) :
    matchesAny botPatterns (truncateOnCharBoundary s.toList maxUaLen) = true := by
  have hentries : ∀ p ∈ botPatterns, AsciiEntry p := fun p hp => asciiEntry_of_all (by decide) hp
  rcases hbot with ⟨p, hp, hoccurs⟩
  rcases exists_occurrence (hentries p hp) hoccurs with ⟨a, q, c, htake, hq, hascii, hne⟩
  have hua : ua = a ++ (q ++ (c ++ ua.drop maxUaLen)) := by
    rw [← List.append_assoc q, ← List.append_assoc a, ← htake, List.take_append_drop]
  -- Up to the end of the entry the header is valid too, so it keeps its length there.
  have hnone : none ∉ pieces (a ++ q) := by
    have hwhole : none ∉ pieces ua := by
      rw [pieces_of_fromUtf8 hvalid]
      simp
    rw [hua, Utf8.pieces_append a (hascii.startsAscii hne _), List.mem_append, not_or] at hwhole
    have hlast := Utf8.pieces_ascii_append hascii []
    have hstart := hascii.startsAscii hne []
    rw [List.append_nil] at hlast hstart
    rw [Utf8.pieces_append a hstart, hlast]
    simpa [pieces] using hwhole.1
  have hlen : (a ++ q).length ≤ maxUaLen := by
    have hcut := congrArg List.length htake
    rw [List.length_take, List.length_append, List.length_append] at hcut
    rw [List.length_append]
    omega
  have hbeginning : ua.take (a ++ q).length = a ++ q := by
    rw [hua, ← List.append_assoc, List.take_left]
  rw [← decodedText_of_fromUtf8 hvalid]
  refine scan_of_occurrence (n := (a ++ q).length) hentries hp ?_ ?_
  · rw [hbeginning, List.map_append, hq]
    exact (List.suffix_append _ _).isInfix
  · rw [hbeginning, decodedLen_of_valid hnone]
    exact hlen

/-! ## The call -/

/-- A header without a NUL crosses the boundary as a whole. -/
theorem strArg_of_no_nul {bs : Bytes} (h : 0 ∉ bs) : strArg (some bs) = (fromUtf8 bs).getD "" := by
  change (fromUtf8 (cStr bs)).getD "" = (fromUtf8 bs).getD ""
  rw [cStr_of_no_nul h]

/-- A bot that is found is blocked, whatever else the request says. -/
theorem refused_of_scan {p : Platform} {w : World} {a : Args} {out : OutBuffers}
    (h : matchesAny botPatterns
      (truncateOnCharBoundary a.request.userAgent.toList maxUaLen) = true) :
    (processRequest p w a out).status ≠ 200 := by
  intro hadmitted
  have hallow := ((processRequest_settled p w a out).inspected hadmitted).1
  have hblocks : Blocks (w.wafContext p) a.request.path a.request.authHeader a.request.userAgent
      (fromUtf8Lossy (a.body.getD [])) a.request.clientIp w.shm.waf :=
    (blocks_iff _ _ _ _ _ _ _).2 (Or.inr (Or.inr (Or.inr (Or.inr (Or.inl h)))))
  have hbody : fromUtf8Lossy (a.body.getD []) = a.request.body := by
    change fromUtf8Lossy (a.body.getD []) = (a.body.map fromUtf8Lossy).getD ""
    cases a.body with
    | none => decide
    | some body => rfl
  rw [hbody] at hblocks
  rcases hblocks with ⟨status, reason, hblock⟩
  cases hblock.symm.trans hallow

/-- Nothing but the text of the header counts. -/
theorem processRequest_userAgent {p : Platform} {w : World} {a : Args} {out : OutBuffers}
    {ua ua' : Option Bytes} (h : strArg ua = strArg ua') :
    processRequest p w { a with userAgent := ua } out =
      processRequest p w { a with userAgent := ua' } out := by
  have hrequest : ({ a with userAgent := ua } : Args).request =
      ({ a with userAgent := ua' } : Args).request := by
    unfold Args.request
    simp only [h]
  unfold processRequest
  simp only [hrequest]

/-- A header that names a bot within its first 512 bytes keeps a request out of every worker in every state
exactly when the whole header is valid UTF-8. -/
theorem bot_refused_iff {ua : Bytes} (hnul : 0 ∉ ua) (hbot : NamesBot (ua.take maxUaLen)) :
    (∀ (p : Platform) (w : World) (a : Args) (out : OutBuffers), a.userAgent = some ua →
      (processRequest p w a out).status ≠ 200) ↔ (fromUtf8 ua).isSome = true := by
  constructor
  · intro hrefused
    by_contra hinvalid
    have hempty : strArg (some ua) = strArg none := by
      rw [strArg_of_no_nul hnul, Option.not_isSome_iff_eq_none.1 hinvalid]
      rfl
    -- The scan sees no header at all, and without one this request is admitted.
    have hadmitted : (processRequest samplePlatform sampleWorld anonymousArgs anonymousOut).status =
        200 := by
      decide +kernel
    refine hrefused samplePlatform sampleWorld { anonymousArgs with userAgent := some ua }
      anonymousOut rfl ?_
    rw [processRequest_userAgent hempty]
    exact hadmitted
  · intro hvalid p w a out hua
    rcases Option.isSome_iff_exists.1 hvalid with ⟨s, hs⟩
    have htext : a.request.userAgent = s := by
      change strArg a.userAgent = s
      rw [hua, strArg_of_no_nul hnul, hs]
      rfl
    exact refused_of_scan (htext ▸ scan_of_namesBot hs hbot)

/-- A scanner that names itself, and the same with one byte behind it that is nowhere part of a character. -/
def scannerAgent : Bytes := strBytes "sqlmap/1.7"

def maskedAgent : Bytes := scannerAgent ++ [0xFF]

theorem namesBot_scannerAgent : NamesBot (scannerAgent.take maxUaLen) :=
  ⟨"sqlmap", by decide, [], strBytes "/1.7", by decide⟩

theorem namesBot_maskedAgent : NamesBot (maskedAgent.take maxUaLen) :=
  ⟨"sqlmap", by decide, [], strBytes "/1.7" ++ [0xFF], by decide⟩

theorem scanner_refused :
    (processRequest samplePlatform sampleWorld
      { anonymousArgs with userAgent := some scannerAgent } anonymousOut).status ≠ 200 :=
  (bot_refused_iff (by decide) namesBot_scannerAgent).2 (by decide) samplePlatform
    sampleWorld { anonymousArgs with userAgent := some scannerAgent } anonymousOut rfl

/-- The masked scanner names a bot in its first bytes and is admitted. -/
theorem masked_scanner_admitted :
    0 ∉ maskedAgent ∧ NamesBot (maskedAgent.take maxUaLen) ∧
      (processRequest samplePlatform sampleWorld
        { anonymousArgs with userAgent := some maskedAgent } anonymousOut).status = 200 :=
  ⟨by decide, namesBot_maskedAgent, by decide⟩

end BotDetection
end GatewayEdge
