import Mathlib.Data.List.Infix
import Mathlib.Data.Stream.Init
import Mathlib.Tactic

set_option autoImplicit false

/-!
# Readers

A reader hands out a stream in pieces. A schedule says of each call how much it hands out at most, or
with which error it fails. What a program makes of the stream should not depend on the schedule.

* `Source`, `Source.split`: a reader, and one that does not fail;
* `Source.read`, `Source.fillBuf`, `Source.consume`: the two ways to read, into a buffer of the caller
  or out of one of the reader;
* `Source.foldReads`: a loop that reads to the end; **`foldReads_split`**: the schedule does not show
  when two pieces can be taken as one;
* `firstPiece`, `pieces`: a stream cut after each separator; **`firstPiece_append`**,
  `firstPiece_separator`: its first piece, when only a part of the stream is known.
-/

/-- The rest of a stream. An entry of the schedule is one less than what a call hands out at most. -/
structure Source (ε α : Type) where
  rest : List α
  schedule : Stream' (Except ε ℕ)

namespace Source

variable {ε α σ : Type}

/-- A reader that does not fail. -/
def split (stream : List α) (sizes : Stream' ℕ) : Source ε α := ⟨stream, sizes.map .ok⟩

/-- `Read::read` with a buffer of the given size. -/
def read (size : ℕ) (source : Source ε α) : Except ε (List α) × Source ε α :=
  match source.schedule.head with
  | .error e => (.error e, ⟨source.rest, source.schedule.tail⟩)
  | .ok extra =>
    let count := min (extra + 1) size
    (.ok (source.rest.take count), ⟨source.rest.drop count, source.schedule.tail⟩)

/-- `BufRead::fill_buf`. -/
def fillBuf (source : Source ε α) : Except ε (List α) × Source ε α :=
  match source.schedule.head with
  | .error e => (.error e, ⟨source.rest, source.schedule.tail⟩)
  | .ok extra => (.ok (source.rest.take (extra + 1)), ⟨source.rest, source.schedule.tail⟩)

/-- `BufRead::consume`. -/
def consume (count : ℕ) (source : Source ε α) : Source ε α :=
  ⟨source.rest.drop count, source.schedule⟩

/-! ## Reading to the end -/

theorem read_shortens {size : ℕ} {source later : Source ε α} {a : α} {chunk : List α}
    (h : source.read size = (.ok (a :: chunk), later)) :
    later.rest.length < source.rest.length := by
  unfold read at h
  split at h
  · cases h
  · obtain ⟨htake, rfl⟩ := Prod.mk.inj h
    have hchunk := congrArg List.length (Except.ok.inj htake)
    simp only [List.length_take, List.length_cons] at hchunk
    simp only [List.length_drop]
    omega

/-- Read pieces until there are none, and add each one to a state. -/
def foldReads (size : ℕ) (step : σ → List α → σ) (state : σ) (source : Source ε α) : Except ε σ :=
  match _h : source.read size with
  | (.error e, _) => .error e
  | (.ok [], _) => .ok state
  | (.ok (a :: chunk), later) => foldReads size step (step state (a :: chunk)) later
  termination_by source.rest.length
  decreasing_by exact read_shortens _h

theorem read_split (size : ℕ) (stream : List α) (sizes : Stream' ℕ) :
    (split stream sizes : Source ε α).read size =
      (.ok (stream.take (min (sizes.head + 1) size)),
        split (stream.drop (min (sizes.head + 1) size)) sizes.tail) := rfl

theorem fillBuf_split (stream : List α) (sizes : Stream' ℕ) :
    (split stream sizes : Source ε α).fillBuf =
      (.ok (stream.take (sizes.head + 1)), split stream sizes.tail) := rfl

theorem consume_split (count : ℕ) (stream : List α) (sizes : Stream' ℕ) :
    (split stream sizes : Source ε α).consume count = split (stream.drop count) sizes := rfl

/-- **The schedule does not show** in a loop for which two pieces one after the other are as good as
one piece. -/
theorem foldReads_split {size : ℕ} {step : σ → List α → σ} (hsize : 0 < size)
    (hnil : ∀ state, step state [] = state)
    (happend : ∀ state a b, step (step state a) b = step state (a ++ b))
    (stream : List α) (sizes : Stream' ℕ) (state : σ) :
    (split stream sizes : Source ε α).foldReads size step state = .ok (step state stream) := by
  induction hlength : stream.length using Nat.strong_induction_on generalizing stream sizes state with
  | _ n ih =>
    unfold foldReads
    split
    · rename_i e later hread
      rw [read_split] at hread
      cases hread
    · rename_i later hread
      rw [read_split] at hread
      obtain ⟨htake, -⟩ := Prod.mk.inj hread
      have hempty : stream = [] := by
        have hchunk := congrArg List.length (Except.ok.inj htake)
        rw [List.length_take, List.length_nil] at hchunk
        exact List.length_eq_zero_iff.mp (by omega)
      rw [hempty, hnil]
    · rename_i a chunk later hread
      have hshorter := read_shortens hread
      rw [read_split] at hread
      obtain ⟨htake, rfl⟩ := Prod.mk.inj hread
      rw [← Except.ok.inj htake]
      rw [ih _ (by rw [← hlength]; exact hshorter) _ _ _ rfl, happend, List.take_append_drop]

end Source

/-! ## Pieces -/

section Pieces

variable {α : Type} [DecidableEq α]

/-- The elements up to the first separator and with it, and those behind. -/
def firstPiece (separator : α) : List α → List α × List α
  | [] => ([], [])
  | x :: rest =>
    if x = separator then ([x], rest)
    else (x :: (firstPiece separator rest).1, (firstPiece separator rest).2)

/-- A stream cut after each separator. -/
def pieces (separator : α) : List α → List (List α)
  | [] => []
  | x :: rest =>
    if x = separator then [x] :: pieces separator rest
    else
      match pieces separator rest with
      | [] => [[x]]
      | piece :: later => (x :: piece) :: later

variable {separator : α} {a b : List α}

theorem firstPiece_append (ha : separator ∉ a) :
    firstPiece separator (a ++ b) =
      (a ++ (firstPiece separator b).1, (firstPiece separator b).2) := by
  induction a with
  | nil => rfl
  | cons x a ih =>
    obtain ⟨hx, ha⟩ := not_or.mp (mt List.mem_cons.mpr ha)
    rw [List.cons_append, firstPiece, if_neg (Ne.symm hx), ih ha]
    rfl

theorem firstPiece_separator (ha : separator ∉ a) :
    firstPiece separator (a ++ separator :: b) = (a ++ [separator], b) := by
  rw [firstPiece_append ha, firstPiece, if_pos rfl]

theorem pieces_eq {l : List α} (hne : l ≠ []) :
    pieces separator l =
      (firstPiece separator l).1 :: pieces separator (firstPiece separator l).2 := by
  induction l with
  | nil => exact absurd rfl hne
  | cons x rest ih =>
    rw [pieces, firstPiece]
    split
    · rfl
    · cases rest with
      | nil => rfl
      | cons y rest =>
        rw [ih (List.cons_ne_nil _ _)]

theorem pieces_flatten (separator : α) (l : List α) : (pieces separator l).flatten = l := by
  induction l with
  | nil => rfl
  | cons x rest ih =>
    unfold pieces
    split
    · rw [List.flatten_cons, ih, List.singleton_append]
    · split
      · rename_i hnil
        rw [hnil] at ih
        rw [← ih]
        rfl
      · rename_i piece later hpieces
        rw [hpieces] at ih
        rw [← ih]
        rfl

theorem separator_last {piece : List α} {l : List α} (h : piece ∈ pieces separator l) :
    separator ∉ piece.dropLast := by
  induction l generalizing piece with
  | nil => cases h
  | cons x rest ih =>
    unfold pieces at h
    split at h
    · rcases List.mem_cons.mp h with rfl | hlater
      · exact List.not_mem_nil
      · exact ih hlater
    · rename_i hx
      split at h
      · rw [List.mem_singleton.mp h]
        exact List.not_mem_nil
      · rename_i first later hpieces
        rcases List.mem_cons.mp h with rfl | hlater
        · have hfirst := ih (hpieces ▸ List.mem_cons_self)
          cases first with
          | nil => exact List.not_mem_nil
          | cons y first =>
            rw [List.dropLast_cons_of_ne_nil (List.cons_ne_nil _ _)]
            exact fun hmem => (List.mem_cons.mp hmem).elim (fun heq => hx heq.symm) hfirst
        · exact ih (hpieces ▸ List.mem_cons_of_mem _ hlater)

end Pieces
