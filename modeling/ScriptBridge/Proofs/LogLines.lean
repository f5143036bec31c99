import Mathlib.Data.List.Forall2
import ScriptBridge.Log.Queue
import ScriptBridge.Proofs.ContentLines

/-!
# Nothing of a text is lost in the log

Between a text and the lines that the server prints there are five steps: what is no UTF-8 is replaced, the
text is divided into lines, blank lines are left out, each other line is encoded behind its mark, and what
is too long for one call is cut.

**Lines.** `Divided` says how a text consists of its lines, by their ends alone: a line feed, a carriage
return with a line feed, or the end of the text. So the lines can be put together again.

**Pieces.** `CutInto` says of the pieces of a line that they are short, that none holds a zero, and that
together they are the encoded line without its zeros. The line is cut first and the zeros are taken out of
the pieces, so a piece may turn out shorter than it had to be, but none is more than is needed.

**Writers.** A text comes in parts, and a writer does nothing but put them together before it hands them
on. So it does not matter where the text was divided, even if that is inside of a character.
-/

namespace ScriptBridge

/-- Bytes without a zero can be handed over with one behind them. -/
theorem zeroEnded?_of_not_mem {bytes : List UInt8} (h : 0 ∉ bytes) : zeroEnded? bytes = some bytes := by
  unfold zeroEnded?
  rw [if_neg (by simpa using h)]

namespace Text

/-! ## Lines by their ends -/

/-- **A text consists of lines**, each with its end. The last one may lack it, and is then not empty. -/
inductive Divided : List Char → List (List Char) → Prop where
  | nothing : Divided [] []
  | last {line : List Char} : line ≠ [] → '\n' ∉ line → Divided line [line]
  | feed {line rest : List Char} {lines : List (List Char)} : '\n' ∉ line →
      line.getLast? ≠ some '\r' → Divided rest lines →
      Divided (line ++ '\n' :: rest) (line :: lines)
  | returnFeed {line rest : List Char} {lines : List (List Char)} : '\n' ∉ line →
      Divided rest lines → Divided (line ++ '\r' :: '\n' :: rest) (line :: lines)

theorem lines_append {line : List Char} (hline : '\n' ∉ line) (rest : List Char) :
    lines (line ++ '\n' :: rest) = withoutReturn line :: lines rest := by
  have hpieces : splitLines (line ++ '\n' :: rest) = line :: splitLines rest := by
    rw [splitLines_append, splitLines_of_not_mem hline]
    rfl
  obtain ⟨piece, pieces, hrest⟩ := List.exists_cons_of_ne_nil (splitLines_ne_nil rest)
  unfold lines
  rw [hpieces, hrest]
  dsimp only
  rw [List.dropLast_cons_cons, List.map_cons, List.getLast?_cons_cons]
  split
  · rfl
  · rfl
  · rfl

theorem lines_of_not_mem {line : List Char} (hne : line ≠ []) (hline : '\n' ∉ line) :
    lines line = [line] := by
  unfold lines
  rw [splitLines_of_not_mem hline]
  cases line with
  | nil => exact absurd rfl hne
  | cons c line => rfl

/-- **The lines of a text are what it consists of.** -/
theorem divided_lines (text : List Char) : Divided text (lines text) := by
  rcases splitLines_cases text with ⟨hnone, _⟩ | ⟨line, rest, htext, hline, _⟩
  · by_cases hempty : text = []
    · rw [hempty]
      exact .nothing
    · rw [lines_of_not_mem hempty hnone]
      exact .last hempty hnone
  · have hlt : rest.length < text.length := by
      rw [htext, List.length_append, List.length_cons]
      omega
    have ih := divided_lines rest
    rw [htext, lines_append hline, withoutReturn]
    split
    · rename_i hreturn
      obtain ⟨front, rfl⟩ := List.getLast?_eq_some_iff.mp hreturn
      have hfront : '\n' ∉ front := fun hmem => hline (List.mem_append_left _ hmem)
      rw [List.dropLast_concat, List.append_assoc]
      exact .returnFeed hfront ih
    · rename_i hreturn
      exact .feed hline hreturn ih
termination_by text.length

/-- Trimming leaves nothing of a text exactly if it is blank. -/
theorem trim_eq_nil_iff {cs : List Char} : trim cs = [] ↔ AllBlank cs := by
  constructor
  · intro hnone
    obtain ⟨before, behind, hbefore, hbehind, hcs⟩ := exists_eq_padded_trim cs
    rw [hnone, List.append_nil] at hcs
    intro c hc
    rw [hcs] at hc
    exact (List.mem_append.mp hc).elim (hbefore c) (hbehind c)
  · intro hblank
    rw [← List.append_nil cs, trim_append_left hblank]
    rfl

end Text

namespace Log

/-! ## Pieces of a line -/

section

variable {size : Nat}

/-- Cutting loses nothing, if there may be as many pieces as there are bytes. -/
theorem flatten_cut (hsize : 0 < size) :
    ∀ (pieces : Nat) (bytes : List UInt8), bytes.length ≤ pieces →
      (cut size pieces bytes).flatten = bytes
  | 0, bytes, hlength => (List.length_eq_zero_iff.mp (Nat.le_zero.mp hlength)).symm
  | _ + 1, [], _ => rfl
  | pieces + 1, b :: bytes, hlength => by
      have hrest : ((b :: bytes).drop size).length ≤ pieces := by
        rw [List.length_drop, List.length_cons] at *
        omega
      show ((b :: bytes).take size :: cut size pieces ((b :: bytes).drop size)).flatten = _
      rw [List.flatten_cons, flatten_cut hsize pieces _ hrest, List.take_append_drop]

theorem length_le_of_mem_cut :
    ∀ (pieces : Nat) (bytes : List UInt8), ∀ piece ∈ cut size pieces bytes, piece.length ≤ size
  | 0, _, piece, hpiece => absurd hpiece List.not_mem_nil
  | _ + 1, [], piece, hpiece => absurd hpiece List.not_mem_nil
  | pieces + 1, b :: bytes, piece, hpiece => by
      rcases List.mem_cons.mp hpiece with rfl | hrest
      · exact List.length_take_le _ _
      · exact length_le_of_mem_cut pieces _ piece hrest

/-- There are no more pieces than the bytes need. -/
theorem length_cut (hsize : 0 < size) :
    ∀ (pieces : Nat) (bytes : List UInt8), bytes.length ≤ pieces →
      (cut size pieces bytes).length = (bytes.length + (size - 1)) / size
  | 0, bytes, hlength => by
      rw [Nat.le_zero.mp hlength, Nat.zero_add, Nat.div_eq_of_lt (by omega)]
      rfl
  | _ + 1, [], _ => by
      rw [List.length_nil, Nat.zero_add, Nat.div_eq_of_lt (by omega)]
      rfl
  | pieces + 1, b :: bytes, hlength => by
      have hrest : ((b :: bytes).drop size).length ≤ pieces := by
        rw [List.length_drop, List.length_cons] at *
        omega
      show (cut size pieces ((b :: bytes).drop size)).length + 1 = _
      rw [length_cut hsize pieces _ hrest, List.length_drop]
      by_cases hshort : (b :: bytes).length ≤ size
      · rw [Nat.sub_eq_zero_of_le hshort, Nat.zero_add, Nat.div_eq_of_lt (by omega),
          Nat.div_eq_of_lt_le] <;> rw [List.length_cons] at * <;> omega
      · rw [← Nat.add_div_right _ hsize]
        congr 1
        omega

end

/-- **Bytes cut into pieces that can be printed**: no piece is too long or holds a zero, together they are
the bytes without the zeros, and there are as few of them as have place for all bytes. -/
structure CutInto (bytes : List UInt8) (pieces : List Line) : Prop where
  short : ∀ piece ∈ pieces, piece.length ≤ 2048
  clean : ∀ piece ∈ pieces, 0 ∉ piece
  whole : pieces.flatten = bytes.filter (· != 0)
  few : pieces.length = (bytes.length + 2047) / 2048

/-- **The pieces of a line** are those of its encoding behind the mark. -/
theorem cutInto_pieces (line : List Char) :
    CutInto (CodePage.encode (mark ++ String.ofList line)) (pieces line) := by
  have hsize : 0 < maxPiece := by decide
  unfold pieces
  refine ⟨fun piece hpiece => ?_, fun piece hpiece hzero => ?_, ?_, ?_⟩
  · obtain ⟨whole, hwhole, rfl⟩ := List.mem_map.mp hpiece
    exact Nat.le_trans (List.length_filter_le _ _) (length_le_of_mem_cut _ _ whole hwhole)
  · obtain ⟨whole, _, rfl⟩ := List.mem_map.mp hpiece
    exact absurd (List.mem_filter.mp hzero).2 (by simp)
  · rw [← List.filter_flatten, flatten_cut hsize _ _ (Nat.le_refl _)]
  · rw [List.length_map, length_cut hsize _ _ (Nat.le_refl _)]
    rfl

/-! ## Texts -/

theorem isVisible_eq (line : List Char) : isVisible line = decide (¬ Text.AllBlank line) := by
  rw [Bool.eq_iff_iff, decide_eq_true_iff, ← Text.trim_eq_nil_iff]
  unfold isVisible
  rw [Bool.not_eq_true', List.isEmpty_eq_false_iff]

theorem emit_eq (text : List UInt8) : emit text =
    (((Text.lines (Utf8.lossy text).toList).filter fun line => ¬ Text.AllBlank line).map pieces).flatten := by
  unfold emit
  rw [List.flatMap_def, List.filter_congr fun line _ => isVisible_eq line]

/-- **What is logged of a text** are the pieces of its lines that are not blank. -/
theorem emit_pieces (text : List UInt8) :
    ∃ lines groups, Text.Divided (Utf8.lossy text).toList lines
      ∧ List.Forall₂ (fun line group =>
          CutInto (CodePage.encode (mark ++ String.ofList line)) group)
        (lines.filter fun line => ¬ Text.AllBlank line) groups
      ∧ emit text = groups.flatten := by
  refine ⟨_, _, Text.divided_lines _, ?_, emit_eq text⟩
  rw [List.forall₂_map_right_iff]
  exact List.forall₂_same.mpr fun line _ => cutInto_pieces line

/-- No line that is logged holds a zero, so each can be printed. -/
theorem zero_not_mem_emit {text : List UInt8} {line : Line} (h : line ∈ emit text) : 0 ∉ line := by
  obtain ⟨source, _, hpiece⟩ := List.mem_flatMap.mp h
  exact (cutInto_pieces source).clean line hpiece

theorem emit_nil : emit [] = [] := by
  unfold emit Utf8.lossy
  rw [Utf8.pieces, List.map_nil, String.toList_ofList]
  rfl

/-! ## Printing -/

namespace Queue

variable {queue : Queue} {lines : List Line}

theorem foldl_print (queue : Queue) (h : ∀ line ∈ lines, 0 ∉ line) :
    lines.foldl print queue = { queue with printed := queue.printed ++ lines } := by
  induction lines generalizing queue with
  | nil => rw [List.append_nil]; rfl
  | cons line lines ih =>
      have hprint : queue.print line = { queue with printed := queue.printed ++ [line] } := by
        unfold print
        rw [zeroEnded?_of_not_mem (h line List.mem_cons_self)]
      rw [List.foldl_cons, ih _ fun other hother => h other (List.mem_cons_of_mem _ hother), hprint,
        List.append_assoc]
      rfl

/-- **On the thread of the server** a text is printed at once. -/
theorem write_server (queue : Queue) (text : List UInt8) :
    queue.write true text = { queue with printed := queue.printed ++ emit text } :=
  foldl_print queue fun _ hline => zero_not_mem_emit hline

theorem foldl_pending (queue : Queue) (lines : List Line) :
    lines.foldl (dispatchLine false) queue = { queue with pending := queue.pending ++ lines } := by
  induction lines generalizing queue with
  | nil => rw [List.append_nil]; rfl
  | cons line lines ih =>
      rw [List.foldl_cons, ih]
      show ({ queue with pending := queue.pending ++ [line] ++ lines } : Queue) = _
      rw [List.append_assoc]
      rfl

/-- **On another thread** a text waits. -/
theorem write_other (queue : Queue) (text : List UInt8) :
    queue.write false text = { queue with pending := queue.pending ++ emit text } :=
  foldl_pending queue (emit text)

theorem pending_foldl_print (queue : Queue) (lines : List Line) :
    (lines.foldl print queue).pending = queue.pending := by
  induction lines generalizing queue with
  | nil => rfl
  | cons line lines ih =>
      rw [List.foldl_cons, ih]
      unfold print
      cases zeroEnded? line <;> rfl

/-- What was pending is no longer. -/
theorem pending_flush (queue : Queue) : queue.flush.pending = [] :=
  pending_foldl_print _ queue.pending

/-- **What waits is printed in the next frame**, behind all that waited before. -/
theorem flush_write_other (queue : Queue) (text : List UInt8) :
    (queue.write false text).flush = ⟨[], queue.flush.printed ++ emit text⟩ := by
  rw [write_other]
  show (queue.pending ++ emit text).foldl print { queue with pending := [] } = _
  rw [List.foldl_append, foldl_print _ fun _ hline => zero_not_mem_emit hline]
  show (⟨queue.flush.pending, queue.flush.printed ++ emit text⟩ : Queue) = _
  rw [pending_flush]

end Queue

/-! ## Writers -/

namespace Writer

theorem foldl_write (writer : Writer) (parts : List (List UInt8)) :
    parts.foldl write writer = ⟨writer.buffer ++ parts.flatten⟩ := by
  induction parts generalizing writer with
  | nil => rw [List.flatten_nil, List.append_nil]; rfl
  | cons part parts ih =>
      rw [List.foldl_cons, ih, List.flatten_cons]
      show (⟨writer.buffer ++ part ++ parts.flatten⟩ : Writer) = _
      rw [List.append_assoc]

/-- Nothing is logged before a writer is told to hand on what it has. -/
theorem writeAll_lazy (onServer : Bool) (writer : Writer) (queue : Queue)
    (parts : List (List UInt8)) :
    writeAll onServer false writer queue parts = (parts.foldl write writer, queue) := by
  induction parts generalizing writer with
  | nil => rfl
  | cons part parts ih => exact ih (writer.write part)

/-- **The end of a writer** logs what it has, if it has anything. -/
theorem drop_eq (onServer : Bool) (writer : Writer) (queue : Queue) :
    writer.drop onServer queue = queue.write onServer writer.buffer := by
  unfold drop
  split
  · rename_i hempty
    rw [List.isEmpty_iff.mp hempty, Queue.write, emit_nil]
    rfl
  · rfl

end Writer

/--
**Nothing of a text is lost in the log, and nothing is printed twice.** For every text:

* what is logged are the pieces of its lines, line by line in their order. A line is left out exactly if it
  holds only blanks. The pieces of any other one have at most 2048 bytes and no zeros, and together they are
  the encoding of the line behind the mark, less the zeros in it;
* every piece can be handed over to the server. So on the thread of the server all are printed at once, and
  on another thread they are printed in the next frame, behind what waited before.

However a text is divided among the parts that a writer is given, nothing is logged before the writer is
flushed or comes to its end. Then the whole text is logged, and the end of a flushed writer adds nothing.
-/
theorem texts_are_logged_whole :
    (∀ text : List UInt8,
      (∃ lines groups, Text.Divided (Utf8.lossy text).toList lines
          ∧ List.Forall₂ (fun line group =>
              CutInto (CodePage.encode (mark ++ String.ofList line)) group)
            (lines.filter fun line => ¬ Text.AllBlank line) groups
          ∧ emit text = groups.flatten)
        ∧ (∀ piece ∈ emit text, zeroEnded? piece = some piece)
        ∧ ∀ queue : Queue,
          queue.write true text = { queue with printed := queue.printed ++ emit text }
            ∧ (queue.write false text).flush = ⟨[], queue.flush.printed ++ emit text⟩)
      ∧ ∀ (parts : List (List UInt8)) (onServer : Bool) (queue : Queue),
        let writer := parts.foldl Writer.write {}
        let flushed := writer.flush onServer queue
        Writer.writeAll onServer false {} queue parts = (writer, queue)
          ∧ writer.drop onServer queue = queue.write onServer parts.flatten
          ∧ flushed.2 = queue.write onServer parts.flatten
          ∧ flushed.1.drop onServer flushed.2 = flushed.2 := by
  refine ⟨fun text => ⟨emit_pieces text, fun piece hpiece => ?_, fun queue => ?_⟩,
    fun parts onServer queue => ?_⟩
  · exact zeroEnded?_of_not_mem (zero_not_mem_emit hpiece)
  · exact ⟨queue.write_server text, queue.flush_write_other text⟩
  · intro writer flushed
    have hbuffer : writer.buffer = parts.flatten :=
      congrArg Writer.buffer (Writer.foldl_write {} parts)
    refine ⟨Writer.writeAll_lazy onServer {} queue parts, ?_, ?_, rfl⟩
    · rw [writer.drop_eq, hbuffer]
    · rw [← hbuffer]
      rfl

/-- A character comes in two parts, behind a zero, and a blank line follows. -/
example :
    (({} : Queue).writeParts true false [[97, 0, 0xC3], [0xA9, 13, 10, 32, 10]]).printed =
      [Utf8.encode "[pawnbridge] a" ++ [0xE9]] := by
  decide +kernel

end Log

end ScriptBridge
