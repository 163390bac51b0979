import Xgeny.Lib.Outcome
import Xgeny.Lib.Source
import Xgeny.Lib.Utf8Lossy
import Xgeny.Slices

set_option autoImplicit false

/-!
# Capturing the output of a process

The output of a process is read to its end. Its first bytes are kept and decoded leniently; the text
is cut once more, between two characters, when the decoding made it too long.

* `captureReader`, with `keepChunk` and `boundaryLoop`: the routine;
* `captureReader_split`: the reads are gone; `captureReader_cut`, `captureReader_fits`: its two ends;
* **`capture_independent_of_reads`**: the result depends on the bytes only, and what it is;
* `captureReader_text`: a text that fits is captured as it is.
-/

namespace Xgeny

structure CapturedStream where
  content : String
  truncated : Bool
  deriving DecidableEq

/-- The buffer of the reading loop. -/
def captureBufferBytes : ℕ := 8 * 1024

/-- The bytes that are kept and the flag, after one more piece. -/
def keepChunk (maximum : ℕ) (state : List UInt8 × Bool) (chunk : List UInt8) : List UInt8 × Bool :=
  let available := maximum - state.1.length
  let keep := min available chunk.length
  (state.1 ++ chunk.take keep, state.2 || decide (keep < chunk.length))

section Routine

variable {ε : Type}

/-- `while !content.is_char_boundary(end) { end -= 1 }`. -/
def boundaryLoop (content : String) : ℕ → Outcome ε ℕ
  | 0 =>
    if isCharBoundary content 0 then .ok 0 else Outcome.abort "attempt to subtract with overflow"
  | stop + 1 =>
    if isCharBoundary content (stop + 1) then .ok (stop + 1) else boundaryLoop content stop

/-- `String::truncate`. -/
def truncateText (content : String) (length : ℕ) : Outcome ε String :=
  if length ≤ byteLen content then
    Outcome.expect ((splitAtByte content length).map Prod.fst)
      "assertion failed: self.is_char_boundary(new_len)"
  else .ok content

/-- `capture_reader`. -/
def captureReader (reader : Source ε UInt8) (maximum : ℕ) : Outcome ε CapturedStream := do
  let state ← (reader.foldReads captureBufferBytes (keepChunk maximum) ([], false)).mapError .err
  let content := String.ofList (Utf8.decodeLossy state.1)
  if maximum < byteLen content then
    let stop ← boundaryLoop content maximum
    let content ← truncateText content stop
    pure ⟨content, true⟩
  else pure ⟨content, state.2⟩

end Routine

/-! ## The reading loop -/

theorem keepChunk_nil (maximum : ℕ) (state : List UInt8 × Bool) :
    keepChunk maximum state [] = state := by
  simp [keepChunk]

theorem keepChunk_append (maximum : ℕ) (state : List UInt8 × Bool) (a b : List UInt8) :
    keepChunk maximum (keepChunk maximum state a) b = keepChunk maximum state (a ++ b) := by
  obtain ⟨retained, truncated⟩ := state
  have hkeep : ∀ (k : ℕ) (chunk : List UInt8), chunk.take (min k chunk.length) = chunk.take k :=
    fun k chunk => by rw [← List.take_take, List.take_length]
  unfold keepChunk
  dsimp only
  rw [hkeep, hkeep, hkeep, List.append_assoc, List.take_append, List.length_append,
    List.length_take, List.length_append, Prod.mk.injEq]
  constructor
  · congr 3
    omega
  · rw [Bool.or_assoc]
    congr 1
    rw [← Bool.decide_or, decide_eq_decide]
    omega

theorem keepChunk_stream (maximum : ℕ) (stream : List UInt8) :
    keepChunk maximum ([], false) stream = (stream.take maximum, decide (maximum < stream.length)) := by
  unfold keepChunk
  dsimp only
  rw [List.nil_append, ← List.take_take, List.take_length, Bool.false_or, Prod.mk.injEq,
    decide_eq_decide]
  refine ⟨rfl, ?_⟩
  simp only [List.length_nil]
  omega

/-! ## The cut -/

section Cut

variable {ε : Type} {content : String}

theorem boundaryLoop_ok (stop : ℕ) : ∃ last, boundaryLoop (ε := ε) content stop = .ok last ∧
    last ≤ stop ∧ isCharBoundary content last = true := by
  induction stop with
  | zero => exact ⟨0, if_pos isCharBoundary_zero, le_rfl, isCharBoundary_zero⟩
  | succ stop ih =>
    unfold boundaryLoop
    split
    · rename_i hboundary
      exact ⟨stop + 1, rfl, le_rfl, hboundary⟩
    · obtain ⟨last, hloop, hle, hlast⟩ := ih
      exact ⟨last, hloop, by omega, hlast⟩

theorem truncateText_boundary {length : ℕ} (hboundary : isCharBoundary content length = true) :
    ∃ front back, truncateText (ε := ε) content length = .ok front ∧ content = front ++ back ∧
      byteLen front = length := by
  obtain ⟨front, back, hcontent, hlength⟩ := isCharBoundary_iff.mp hboundary
  refine ⟨front, back, ?_, hcontent, hlength⟩
  have hle : length ≤ byteLen content := by
    rw [hcontent, byteLen_append]
    omega
  rw [truncateText, if_pos hle, splitAtByte_eq_some.mpr ⟨hcontent, hlength⟩]
  rfl

end Cut

/-! ## The result -/

section Result

variable {ε : Type}

/-- The lenient decoding as a text. -/
def lossyText (bytes : List UInt8) : String := String.ofList (Utf8.decodeLossy bytes)

theorem captureReader_split (stream : List UInt8) (sizes : Stream' ℕ) (maximum : ℕ) :
    captureReader (Source.split stream sizes : Source ε UInt8) maximum =
      if maximum < byteLen (lossyText (stream.take maximum)) then do
        let stop ← boundaryLoop (lossyText (stream.take maximum)) maximum
        let content ← truncateText (lossyText (stream.take maximum)) stop
        pure ⟨content, true⟩
      else pure ⟨lossyText (stream.take maximum), decide (maximum < stream.length)⟩ := by
  rw [captureReader, Source.foldReads_split (by decide) (keepChunk_nil maximum)
    (keepChunk_append maximum), keepChunk_stream]
  rfl

theorem captureReader_cut {stream : List UInt8} {maximum : ℕ}
    (hlong : maximum < byteLen (lossyText (stream.take maximum))) :
    ∃ front back, byteLen front ≤ maximum ∧ lossyText (stream.take maximum) = front ++ back ∧
      ∀ sizes, captureReader (Source.split stream sizes : Source ε UInt8) maximum =
        .ok ⟨front, true⟩ := by
  obtain ⟨stop, hloop, hstop, hboundary⟩ :=
    @boundaryLoop_ok ε (lossyText (stream.take maximum)) maximum
  obtain ⟨front, back, htruncate, hcontent, hlength⟩ := @truncateText_boundary ε _ _ hboundary
  refine ⟨front, back, hlength.trans_le hstop, hcontent, fun sizes => ?_⟩
  rw [captureReader_split, if_pos hlong, hloop]
  show (truncateText _ stop >>= fun _ => _) = _
  rw [htruncate]
  rfl

theorem captureReader_fits {stream : List UInt8} {maximum : ℕ}
    (hshort : byteLen (lossyText (stream.take maximum)) ≤ maximum) (sizes : Stream' ℕ) :
    captureReader (Source.split stream sizes : Source ε UInt8) maximum =
      .ok ⟨lossyText (stream.take maximum), decide (maximum < stream.length)⟩ := by
  rw [captureReader_split, if_neg (Nat.not_lt.mpr hshort)]
  rfl

theorem captureReader_text {text : String} {maximum : ℕ} (h : byteLen text ≤ maximum)
    (sizes : Stream' ℕ) :
    captureReader (Source.split (bytes text) sizes : Source ε UInt8) maximum =
      .ok ⟨text, false⟩ := by
  have hlength : (bytes text).length ≤ maximum := byteLen_eq_length text ▸ h
  have htext : lossyText ((bytes text).take maximum) = text := by
    rw [List.take_of_length_le hlength, lossyText, bytes_eq_encode, Utf8.decodeLossy_encode,
      String.ofList_toList]
  rw [captureReader_fits (htext.symm ▸ h), htext, decide_eq_false (Nat.not_lt.mpr hlength)]

end Result

/-- **What is captured depends on the bytes only.** However a stream is split into reads, the capture
returns the same text. It is not longer than the maximum. It is marked as truncated unless the stream
and its decoding both fit, and then it is the decoding; a truncated text begins the decoding of the
bytes that were kept. -/
theorem capture_independent_of_reads (ε : Type) (stream : List UInt8) (maximum : ℕ) :
    ∃ captured : CapturedStream,
      (∀ sizes : Stream' ℕ,
        captureReader (Source.split stream sizes : Source ε UInt8) maximum = .ok captured) ∧
      byteLen captured.content ≤ maximum ∧
      (captured.truncated = false ↔
        stream.length ≤ maximum ∧ byteLen (lossyText stream) ≤ maximum) ∧
      (captured.truncated = false → captured.content = lossyText stream) ∧
      ∃ cut, lossyText (stream.take maximum) = captured.content ++ cut := by
  by_cases hlong : maximum < byteLen (lossyText (stream.take maximum))
  · obtain ⟨front, back, hfits, hcontent, hcapture⟩ := @captureReader_cut ε _ _ hlong
    refine ⟨⟨front, true⟩, hcapture, hfits, ?_, fun h => Bool.noConfusion h, back, hcontent⟩
    simp only [Bool.true_eq_false, false_iff, not_and, Nat.not_le]
    intro hshort
    rwa [List.take_of_length_le hshort] at hlong
  · have hshort := Nat.not_lt.mp hlong
    refine ⟨_, captureReader_fits hshort, hshort, ?_, ?_, "", String.append_empty.symm⟩
    · rw [decide_eq_false_iff_not, Nat.not_lt]
      constructor
      · intro hfits
        rw [List.take_of_length_le hfits] at hshort
        exact ⟨hfits, hshort⟩
      · exact And.left
    · intro hfits
      rw [decide_eq_false_iff_not, Nat.not_lt] at hfits
      rw [List.take_of_length_le hfits]

end Xgeny
