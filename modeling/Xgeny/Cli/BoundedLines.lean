import Xgeny.Cli.Repl
import Xgeny.Lib.Source

set_option autoImplicit false

/-!
# Lines of bounded length

The interactive session reads its lines from a buffered reader, which hands out the input in pieces
that have nothing to do with the lines. A line that is too long is read to its end and dropped.

* `readBoundedLine`, `drainLine`: the routines, with every error of the reader;
* `lineResult`, `lineResults`: what the lines of an input should give; `lineResult_text`: a text is
  returned, whatever its ending;
* **`readBoundedLine_split`**: one call takes one line;
* **`bounded_lines_exact`**: the results of the calls, and every session that reads its lines from the
  reader, depend on the lines only.
-/

namespace Xgeny

/-- `MAX_REPL_LINE_BYTES`. -/
def maxReplLineBytes : ℕ := 16 * 1024

/-- The kinds of errors that are told apart. -/
inductive ReadErrorKind where
  | interrupted
  | invalidData
  | other
  deriving DecidableEq

abbrev LineReader : Type := Source ReadErrorKind UInt8

/-- What a call returns. -/
abbrev LineResult : Type := Except InputFailure (Option String)

def newline : UInt8 := 0x0a
def carriageReturn : UInt8 := 0x0d

/-- The bytes up to the first newline and with it. -/
def takeCount (available : List UInt8) : ℕ :=
  match available.findIdx? (· == newline) with
  | some index => index + 1
  | none => available.length

theorem takeCount_pos {b : UInt8} {more : List UInt8} : 0 < takeCount (b :: more) := by
  unfold takeCount
  split
  · omega
  · simp

theorem consume_shortens {reader later : LineReader} {b : UInt8} {more : List UInt8} {count : ℕ}
    (h : reader.fillBuf = (.ok (b :: more), later)) (hcount : 0 < count) :
    (later.consume count).rest.length < reader.rest.length := by
  unfold Source.fillBuf at h
  split at h
  · cases h
  · obtain ⟨htake, rfl⟩ := Prod.mk.inj h
    have hchunk := congrArg List.length (Except.ok.inj htake)
    simp only [List.length_take, List.length_cons] at hchunk
    simp only [Source.consume, List.length_drop]
    omega

/-- `drain_line`. -/
def drainLine (reader : LineReader) : Except InputFailure Unit × LineReader :=
  match _h : reader.fillBuf with
  | (.error _, later) => (.error .unavailable, later)
  | (.ok [], later) => (.ok (), later)
  | (.ok (b :: more), later) =>
    let take := takeCount (b :: more)
    let done := (b :: more)[take - 1]? == some newline
    if done then (.ok (), later.consume take) else drainLine (later.consume take)
  termination_by reader.rest.length
  decreasing_by exact consume_shortens _h takeCount_pos

/-- The newline at the end, and one carriage return before it, are not part of the text. -/
def stripLineEnd (bytes : List UInt8) : List UInt8 :=
  if bytes.getLast? = some newline then
    let bytes := bytes.dropLast
    if bytes.getLast? = some carriageReturn then bytes.dropLast else bytes
  else bytes

/-- What is done with the bytes after the loop. -/
def finishLine (bytes : List UInt8) : LineResult :=
  match String.fromUTF8? (stripLineEnd bytes).toByteArray with
  | some text => .ok (some text)
  | none => .error .unavailable

/-- The loop of `read_bounded_line`, with the bytes that it has kept. -/
def readLineLoop (bytes : List UInt8) (reader : LineReader) : LineResult × LineReader :=
  match _h : reader.fillBuf with
  | (.error .interrupted, later) => (.ok (some "\x03"), later)
  | (.error .invalidData, later) => (.error .tooLarge, later)
  | (.error .other, later) => (.error .unavailable, later)
  | (.ok [], later) => (if bytes = [] then .ok none else finishLine bytes, later)
  | (.ok (b :: more), later) =>
    let take := takeCount (b :: more)
    if maxReplLineBytes + 2 < bytes.length + take then
      let lineEnded := (b :: more)[take - 1]? == some newline
      let later := later.consume take
      if lineEnded then (.error .tooLarge, later)
      else
        match drainLine later with
        | (.error failure, later) => (.error failure, later)
        | (.ok (), later) => (.error .tooLarge, later)
    else
      let bytes := bytes ++ (b :: more).take take
      if bytes.getLast? = some newline then (finishLine bytes, later.consume take)
      else readLineLoop bytes (later.consume take)
  termination_by reader.rest.length
  decreasing_by exact consume_shortens _h takeCount_pos

/-- `read_bounded_line`. -/
def readBoundedLine (reader : LineReader) : LineResult × LineReader := readLineLoop [] reader

/-- The results of a number of calls. -/
def readLines : ℕ → LineReader → List LineResult
  | 0, _ => []
  | count + 1, reader => (readBoundedLine reader).1 :: readLines count (readBoundedLine reader).2

/-! ## What the lines give -/

/-- The result for a line, which ends with its newline unless the input ends. -/
def lineResult (line : List UInt8) : LineResult :=
  if maxReplLineBytes + 2 < line.length then .error .tooLarge else finishLine line

/-- The results for the lines of an input. -/
def lineResults (input : List UInt8) : List LineResult := (pieces newline input).map lineResult

theorem finishLine_eq_ok {line : List UInt8} {text : String} :
    finishLine line = .ok (some text) ↔ bytes text = stripLineEnd line := by
  unfold finishLine
  rw [← fromUTF8_eq_some]
  cases String.fromUTF8? (stripLineEnd line).toByteArray with
  | none => simp
  | some decoded => simp

theorem stripLineEnd_crlf (text : List UInt8) :
    stripLineEnd (text ++ [carriageReturn, newline]) = text := by
  have hsplit : text ++ [carriageReturn, newline] = text ++ [carriageReturn] ++ [newline] := by simp
  rw [hsplit, stripLineEnd, if_pos List.getLast?_concat, List.dropLast_concat]
  dsimp only
  rw [if_pos List.getLast?_concat, List.dropLast_concat]

theorem stripLineEnd_newline {text : List UInt8} (h : text.getLast? ≠ some carriageReturn) :
    stripLineEnd (text ++ [newline]) = text := by
  rw [stripLineEnd, if_pos List.getLast?_concat, List.dropLast_concat]
  exact if_neg h

theorem stripLineEnd_open {text : List UInt8} (h : newline ∉ text) : stripLineEnd text = text :=
  if_neg fun hlast => h (List.mem_of_getLast? hlast)

theorem lineResult_eq_tooLarge {line : List UInt8} :
    lineResult line = .error .tooLarge ↔ maxReplLineBytes + 2 < line.length := by
  unfold lineResult
  split
  · rename_i hlong
    exact iff_of_true rfl hlong
  · rename_i hshort
    refine iff_of_false ?_ hshort
    unfold finishLine
    split
    · simp
    · simp

theorem lineResult_eq_ok {line : List UInt8} {text : String} :
    lineResult line = .ok (some text) ↔
      line.length ≤ maxReplLineBytes + 2 ∧ bytes text = stripLineEnd line := by
  unfold lineResult
  split
  · rename_i hlong
    exact iff_of_false (by simp) fun h => Nat.not_lt.mpr h.1 hlong
  · rename_i hshort
    rw [finishLine_eq_ok, and_iff_right (Nat.not_lt.mp hshort)]

theorem lineResult_text {text : String} (hline : newline ∉ bytes text)
    (hfits : byteLen text ≤ maxReplLineBytes) :
    lineResult (bytes text ++ [carriageReturn, newline]) = .ok (some text) ∧
      ((bytes text).getLast? ≠ some carriageReturn →
        lineResult (bytes text ++ [newline]) = .ok (some text)) ∧
      lineResult (bytes text) = .ok (some text) := by
  rw [byteLen_eq_length] at hfits
  refine ⟨lineResult_eq_ok.mpr ⟨?_, (stripLineEnd_crlf _).symm⟩,
    fun hlast => lineResult_eq_ok.mpr ⟨?_, (stripLineEnd_newline hlast).symm⟩,
    lineResult_eq_ok.mpr ⟨by omega, (stripLineEnd_open hline).symm⟩⟩
  · rw [List.length_append]
    exact Nat.add_le_add_right hfits 2
  · rw [List.length_append, List.length_singleton]
    omega

/-! ## One piece of the input -/

theorem takeCount_cases (available : List UInt8) :
    newline ∉ available ∧ takeCount available = available.length ∨
      ∃ front back, newline ∉ front ∧ available = front ++ newline :: back ∧
        takeCount available = front.length + 1 := by
  induction available with
  | nil => exact .inl ⟨List.not_mem_nil, rfl⟩
  | cons b more ih =>
    by_cases hb : b = newline
    · refine .inr ⟨[], more, List.not_mem_nil, by rw [hb]; rfl, ?_⟩
      rw [hb]
      rfl
    · have hcount : takeCount (b :: more) = takeCount more + 1 := by
        have hne : (b == newline) = false := by simpa using hb
        unfold takeCount
        rw [List.findIdx?_cons, hne]
        cases more.findIdx? (· == newline) <;> rfl
      rcases ih with ⟨hnone, htake⟩ | ⟨front, back, hfront, hmore, htake⟩
      · refine .inl ⟨?_, by rw [hcount, htake, List.length_cons]⟩
        exact fun h => (List.mem_cons.mp h).elim (fun heq => hb heq.symm) hnone
      · refine .inr ⟨b :: front, back, ?_, by rw [hmore, List.cons_append], ?_⟩
        · exact fun h => (List.mem_cons.mp h).elim (fun heq => hb heq.symm) hfront
        · rw [hcount, htake, List.length_cons]

/-- What is taken of the next piece of an input: all of it, when it has no newline, and otherwise its
part of the first line, with the newline. -/
theorem taken_cases {rest chunk : List UInt8} {extra : ℕ} (h : rest.take (extra + 1) = chunk) :
    (newline ∉ chunk ∧ takeCount chunk = chunk.length ∧
      (chunk[takeCount chunk - 1]? == some newline) = false ∧
      rest = chunk ++ rest.drop (takeCount chunk)) ∨
    ∃ front, newline ∉ front ∧ takeCount chunk = front.length + 1 ∧
      (chunk[takeCount chunk - 1]? == some newline) = true ∧
      chunk.take (takeCount chunk) = front ++ [newline] ∧
      firstPiece newline rest = (front ++ [newline], rest.drop (takeCount chunk)) := by
  have hrest : rest = chunk ++ rest.drop (extra + 1) := by rw [← h, List.take_append_drop]
  rcases takeCount_cases chunk with ⟨hnone, htake⟩ | ⟨front, back, hfront, hsplit, htake⟩
  · refine .inl ⟨hnone, htake, ?_, ?_⟩
    · rw [beq_eq_false_iff_ne]
      intro hlast
      exact hnone (List.mem_of_getElem? hlast)
    · rw [htake]
      conv_rhs => rw [hrest, List.drop_left]
      exact hrest
  · refine .inr ⟨front, hfront, htake, ?_, ?_, ?_⟩
    · rw [htake, hsplit, Nat.add_sub_cancel, List.getElem?_append_right le_rfl, Nat.sub_self]
      rfl
    · rw [htake, hsplit, List.take_append, List.take_of_length_le (Nat.le_succ _),
        Nat.add_sub_cancel_left]
      rfl
    · have hall : rest = front ++ newline :: (back ++ rest.drop (extra + 1)) := by
        conv_lhs => rw [hrest, hsplit]
        rw [List.append_assoc, List.cons_append]
      rw [htake, hall, firstPiece_separator hfront]
      congr 1
      rw [List.drop_append, List.drop_of_length_le (Nat.le_succ _), Nat.add_sub_cancel_left]
      rfl

theorem drainLine_split (rest : List UInt8) (sizes : Stream' ℕ) :
    ∃ sizes', drainLine (Source.split rest sizes) =
      (.ok (), Source.split (firstPiece newline rest).2 sizes') := by
  induction hlength : rest.length using Nat.strong_induction_on generalizing rest sizes with
  | _ n ih =>
    unfold drainLine
    split
    · rename_i e later hfill
      cases hfill
    · rename_i later hfill
      rw [Source.fillBuf_split] at hfill
      obtain ⟨htake, rfl⟩ := Prod.mk.inj hfill
      have hempty : rest = [] := by
        cases rest with
        | nil => rfl
        | cons b rest => cases htake
      exact ⟨sizes.tail, by rw [hempty]; rfl⟩
    · rename_i b more later hfill
      have hshorter := consume_shortens hfill (@takeCount_pos b more)
      rw [Source.fillBuf_split] at hfill
      obtain ⟨htake, rfl⟩ := Prod.mk.inj hfill
      dsimp only
      rw [Source.consume_split] at hshorter ⊢
      rcases taken_cases (Except.ok.inj htake) with
        ⟨hnone, -, hopen, hrest⟩ | ⟨front, -, -, hended, -, hpiece⟩
      · rw [hopen]
        obtain ⟨sizes', hdrain⟩ := ih _ (hlength ▸ hshorter) _ sizes.tail rfl
        refine ⟨sizes', hdrain.trans ?_⟩
        conv_rhs => rw [hrest, firstPiece_append hnone]
        rfl
      · rw [hended, hpiece]
        exact ⟨sizes.tail, rfl⟩

theorem lineResult_short {line : List UInt8} (h : line.length ≤ maxReplLineBytes + 2) :
    lineResult line = finishLine line := if_neg (Nat.not_lt.mpr h)

theorem readLineLoop_split (kept rest : List UInt8) (sizes : Stream' ℕ) (hkept : newline ∉ kept)
    (hfits : kept.length ≤ maxReplLineBytes + 2) (hne : kept ++ rest ≠ []) :
    ∃ sizes', readLineLoop kept (Source.split rest sizes) =
      (lineResult (kept ++ (firstPiece newline rest).1),
        Source.split (firstPiece newline rest).2 sizes') := by
  induction hlength : rest.length using Nat.strong_induction_on generalizing kept rest sizes with
  | _ n ih =>
    unfold readLineLoop
    split
    · rename_i later hfill
      cases hfill
    · rename_i later hfill
      cases hfill
    · rename_i later hfill
      cases hfill
    · -- the input ends without a newline
      rename_i later hfill
      rw [Source.fillBuf_split] at hfill
      obtain ⟨htake, rfl⟩ := Prod.mk.inj hfill
      have hempty : rest = [] := by
        cases rest with
        | nil => rfl
        | cons b rest => cases htake
      subst hempty
      rw [List.append_nil] at hne
      rw [if_neg hne, firstPiece, List.append_nil, lineResult_short hfits]
      exact ⟨sizes.tail, rfl⟩
    · rename_i b more later hfill
      have hshorter := consume_shortens hfill (@takeCount_pos b more)
      rw [Source.fillBuf_split] at hfill
      obtain ⟨htake, rfl⟩ := Prod.mk.inj hfill
      dsimp only
      rw [Source.consume_split] at hshorter ⊢
      rcases taken_cases (Except.ok.inj htake) with
        ⟨hnone, hall, hopen, hrest⟩ | ⟨front, hfront, hcount, hended, htaken, hpiece⟩
      · have hline : firstPiece newline rest =
            (b :: more ++ (firstPiece newline (rest.drop (takeCount (b :: more)))).1,
              (firstPiece newline (rest.drop (takeCount (b :: more)))).2) := by
          conv_lhs => rw [hrest, firstPiece_append hnone]
        by_cases hlong : maxReplLineBytes + 2 < kept.length + takeCount (b :: more)
        · -- the line is too long, and its end has not been seen
          rw [if_pos hlong]
          obtain ⟨sizes', hdrain⟩ :=
            drainLine_split (rest.drop (takeCount (b :: more))) sizes.tail
          have hline' : maxReplLineBytes + 2 < (kept ++ (firstPiece newline rest).1).length := by
            rw [hall] at hlong
            rw [hline, List.length_append, List.length_append]
            omega
          refine ⟨sizes', ?_⟩
          rw [lineResult_eq_tooLarge.mpr hline', hopen, if_neg Bool.false_ne_true, hdrain, hline]
        · rw [if_neg hlong]
          have hkept' : newline ∉ kept ++ (b :: more) := fun h =>
            (List.mem_append.mp h).elim hkept hnone
          have hlast : (kept ++ (b :: more).take (takeCount (b :: more))).getLast? ≠
              some newline := by
            rw [hall, List.take_length]
            exact fun h => hkept' (List.mem_of_getLast? h)
          rw [if_neg hlast, hall, List.take_length]
          obtain ⟨sizes', hloop⟩ := ih _ (hlength ▸ hshorter) (kept ++ (b :: more))
            (rest.drop (takeCount (b :: more))) sizes.tail hkept'
            (by rw [List.length_append, ← hall]; omega) (by simp) rfl
          refine ⟨sizes', ?_⟩
          rw [hline, ← List.append_assoc, ← hloop, hall]
      · have hlength' : (kept ++ (front ++ [newline])).length =
            kept.length + takeCount (b :: more) := by
          rw [hcount, List.length_append, List.length_append, List.length_singleton]
        rw [hpiece, htaken]
        by_cases hlong : maxReplLineBytes + 2 < kept.length + takeCount (b :: more)
        · rw [if_pos hlong, if_pos hended, lineResult_eq_tooLarge.mpr (hlength' ▸ hlong)]
          exact ⟨sizes.tail, rfl⟩
        · rw [if_neg hlong]
          have hlast : (kept ++ (front ++ [newline])).getLast? = some newline := by
            rw [← List.append_assoc, List.getLast?_concat]
          rw [if_pos hlast, lineResult_short (hlength'.trans_le (Nat.not_lt.mp hlong))]
          exact ⟨sizes.tail, rfl⟩

/-- **One call takes one line.** -/
theorem readBoundedLine_split {input : List UInt8} (sizes : Stream' ℕ) (hne : input ≠ []) :
    ∃ sizes', readBoundedLine (Source.split input sizes) =
      (lineResult (firstPiece newline input).1,
        Source.split (firstPiece newline input).2 sizes') := by
  have hloop := readLineLoop_split [] input sizes List.not_mem_nil (Nat.zero_le _) (by simpa using hne)
  rwa [List.nil_append] at hloop

theorem readBoundedLine_end (sizes : Stream' ℕ) :
    readBoundedLine (Source.split [] sizes) = (.ok none, Source.split [] sizes.tail) := by
  unfold readBoundedLine readLineLoop
  rfl

/-! ## Calls in a row -/

theorem lineResults_eq {input : List UInt8} (hne : input ≠ []) :
    lineResults input =
      lineResult (firstPiece newline input).1 :: lineResults (firstPiece newline input).2 := by
  rw [lineResults, pieces_eq hne, List.map_cons]
  rfl

theorem readLines_split (count : ℕ) (input : List UInt8) (sizes : Stream' ℕ) :
    readLines count (Source.split input sizes) =
      (List.range count).map fun call => (lineResults input).getD call (.ok none) := by
  induction count generalizing input sizes with
  | zero => rfl
  | succ count ih =>
    unfold readLines
    rw [List.range_succ_eq_map, List.map_cons, List.map_map]
    by_cases hempty : input = []
    · subst hempty
      rw [readBoundedLine_end, ih]
      rfl
    · obtain ⟨sizes', hread⟩ := readBoundedLine_split sizes hempty
      rw [hread, ih, lineResults_eq hempty]
      rfl

/-! ## Sessions -/

section Sessions

variable {W α : Type}

/-- A terminal with a reader, and a world that answers everything but the reading of lines. -/
def readerHost (reply : W → (op : ReplOp) → op.Answer × W) :
    LineReader × W → (op : ReplOp) → op.Answer × (LineReader × W)
  | (reader, w), .readLine => ((readBoundedLine reader).1, ((readBoundedLine reader).2, w))
  | (reader, w), op => ((reply w op).1, (reader, (reply w op).2))

/-- The same terminal, where the results of the lines are known from the start. -/
def linesHost (reply : W → (op : ReplOp) → op.Answer × W) :
    List LineResult × W → (op : ReplOp) → op.Answer × (List LineResult × W)
  | (lines, w), .readLine => (lines.headD (.ok none), (lines.tail, w))
  | (lines, w), op => ((reply w op).1, (lines, (reply w op).2))

/-- Nobody else changes the world. -/
def nobody {World : Type} (_ : World) (_ : ReplOp) : Option (Empty × World) := none

/-- **A session depends on the lines only**: with a reader it does, and is left with, what it would
with the results of the lines. -/
theorem run_readerHost (reply : W → (op : ReplOp) → op.Answer × W) (p : Repl α)
    (input : List UInt8) (sizes : Stream' ℕ) (w : W) :
    let read := p.run (readerHost reply) nobody (Source.split input sizes, w)
    let given := p.run (linesHost reply) nobody (lineResults input, w)
    read.1 = given.1 ∧ read.2.1.2 = given.2.1.2 ∧ read.2.2 = given.2.2 := by
  dsimp only
  induction p generalizing input sizes w with
  | ret a => exact ⟨rfl, rfl, rfl⟩
  | stop fault => exact ⟨rfl, rfl, rfl⟩
  | call op k ih =>
    cases op with
    | readLine =>
      by_cases hempty : input = []
      · subst hempty
        obtain ⟨hmoves, hworld, houtcome⟩ := ih (.ok none) [] sizes.tail w
        simp only [Prog.run, nobody, readerHost, linesHost, readBoundedLine_end]
        exact ⟨congrArg _ hmoves, hworld, houtcome⟩
      · obtain ⟨sizes', hread⟩ := readBoundedLine_split sizes hempty
        obtain ⟨hmoves, hworld, houtcome⟩ :=
          ih (lineResult (firstPiece newline input).1) (firstPiece newline input).2 sizes' w
        simp only [Prog.run, nobody, readerHost, linesHost, hread, lineResults_eq hempty]
        exact ⟨congrArg _ hmoves, hworld, houtcome⟩
    | _ =>
      obtain ⟨hmoves, hworld, houtcome⟩ := ih _ input sizes _
      exact ⟨congrArg _ hmoves, hworld, houtcome⟩

/-- The answer that a line gives to a question for consent. -/
def approvalAnswer : LineResult → Outcome ReplError Bool
  | .ok (some value) => .ok (isConsent value)
  | .ok none | .error .tooLarge | .error .invalidCommand => .ok false
  | .error .unavailable => Outcome.fail .approvalUnavailable

theorem run_print (host : W → (op : ReplOp) → op.Answer × W) (output : ReplOutput)
    (k : Unit → Repl α) (w : W) :
    ((Repl.print output >>= k).run host nobody w).2.2 =
      if ((host w (.print output)).1 : Bool) then ((k ()).run host nobody (host w (.print output)).2).2.2
      else Outcome.fail .output := by
  have hbranch : ∀ (written : Bool) (later : W),
      ((((if written then .ret () else .stop (.err .output)) : Repl Unit).bind k).run host nobody
        later).2.2 =
      if written then ((k ()).run host nobody later).2.2 else Outcome.fail .output := by
    intro written later
    cases written with
    | false => rfl
    | true => rfl
  exact hbranch _ _

theorem run_promptApproval (reply : W → (op : ReplOp) → op.Answer × W) (kind : PermissionKind)
    (lines : List LineResult) (w : W) :
    ((promptApproval kind).run (linesHost reply) nobody (lines, w)).2.2 =
      if ((reply w (.print (.approvalPrompt kind))).1 : Bool) then
        approvalAnswer (lines.headD (.ok none))
      else Outcome.fail .output := by
  have hanswer : ∀ (line : LineResult) (later : List LineResult × W),
      (Prog.run (linesHost reply) nobody (match line with
        | .ok (some value) => .ret (isConsent value)
        | .ok none | .error .tooLarge | .error .invalidCommand => .ret false
        | .error .unavailable => .stop (.err .approvalUnavailable) : Repl Bool) later).2.2 =
      approvalAnswer line := by
    rintro ((_ | _ | _) | (_ | _)) later
    all_goals rfl
  rw [promptApproval, run_print]
  simp only [Prog.run, nobody, linesHost]
  congr 1
  exact hanswer _ _

end Sessions

/-- **Lines do not depend on how the input comes in.** However the reader splits the input, the calls
return the results of its lines, in order and one for each; a session with the reader goes like one
that is given these results; and a question for consent is answered by one line, where a line that is
too long does not consent. -/
theorem bounded_lines_exact (input : List UInt8) (sizes : Stream' ℕ) :
    ((pieces newline input).flatten = input ∧
      ∀ line ∈ pieces newline input, newline ∉ line.dropLast) ∧
    (∀ line, (lineResult line = .error .tooLarge ↔ maxReplLineBytes + 2 < line.length) ∧
      ∀ text, lineResult line = .ok (some text) ↔
        line.length ≤ maxReplLineBytes + 2 ∧ bytes text = stripLineEnd line) ∧
    (∀ count, readLines count (Source.split input sizes) =
      (List.range count).map fun call => (lineResults input).getD call (.ok none)) ∧
    (∀ (W α : Type) (reply : W → (op : ReplOp) → op.Answer × W) (p : Repl α) (w : W),
      let read := p.run (readerHost reply) nobody (Source.split input sizes, w)
      let given := p.run (linesHost reply) nobody (lineResults input, w)
      read.1 = given.1 ∧ read.2.1.2 = given.2.1.2 ∧ read.2.2 = given.2.2) ∧
    ∀ (W : Type) (reply : W → (op : ReplOp) → op.Answer × W) (kind : PermissionKind) (w : W),
      ((promptApproval kind).run (readerHost reply) nobody (Source.split input sizes, w)).2.2 =
        if ((reply w (.print (.approvalPrompt kind))).1 : Bool) then
          approvalAnswer ((lineResults input).headD (.ok none))
        else Outcome.fail .output := by
  refine ⟨⟨pieces_flatten newline input, fun line hline => separator_last hline⟩,
    fun line => ⟨lineResult_eq_tooLarge, fun text => lineResult_eq_ok⟩, fun count =>
      readLines_split count input sizes,
    fun W α reply p w => run_readerHost reply p input sizes w, fun W reply kind w => ?_⟩
  rw [(run_readerHost reply (promptApproval kind) input sizes w).2.2, run_promptApproval]

end Xgeny
