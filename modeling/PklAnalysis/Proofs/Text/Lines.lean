import PklAnalysis.Proofs.Token.Bytes
import PklAnalysis.Text.Lines

/-!
Offsets and positions of a text. A line starts at the beginning and after each
byte that is a line break, and an offset is on the last line that starts no
later. So an offset has one position, and the position leads back to it.
-/

namespace PklAnalysis

def Position.Before (left right : Position) : Prop :=
  left.line < right.line ∨ left.line = right.line ∧ left.column < right.column

theorem Position.Before.atMost {left right : Position}
    (hbefore : left.Before right) :
    left.atMost right = true := by
  rw [Position.atMost]
  rcases hbefore with hline | ⟨hline, hcolumn⟩
  · simp [hline]
  · simp [hline, Nat.le_of_lt hcolumn]

theorem Position.atMost_self (position : Position) :
    position.atMost position = true := by
  simp [Position.atMost]

namespace Lines

def newline : UInt8 := 10

def bytes (text : String) : List UInt8 :=
  text.toUTF8.data.toList

theorem bytes_eq_flatMap (text : String) :
    bytes text = text.toList.flatMap String.utf8EncodeChar := by
  have hchars :
      text.toUTF8 =
        (text.toList.flatMap String.utf8EncodeChar).toByteArray := by
    rw [← List.utf8Encode, ← String.toByteArray_ofList, String.ofList_toList,
      String.toUTF8]
  rw [bytes, hchars, List.data_toByteArray, List.toList_toArray]

theorem length_bytes (text : String) :
    (bytes text).length = text.utf8ByteSize :=
  rfl

theorem newline_notMem_utf8EncodeChar {c : Char} (hc : c ≠ '\n') :
    newline ∉ String.utf8EncodeChar c := by
  by_cases hascii : c.toNat < 128
  case pos =>
      rw [Token.Bytewise.utf8EncodeChar_of_ascii hascii, List.mem_singleton]
      intro hsame
      have hbyte : Token.Bytewise.byteOf '\n' = Token.Bytewise.byteOf c := hsame
      exact hc ((Token.Bytewise.byteOf_eq_iff (by decide) hascii).mp hbyte).symm
  case neg =>
      intro hmem
      have hlarge :=
        Token.Bytewise.le_of_mem_utf8EncodeChar (Nat.le_of_not_lt hascii)
          newline hmem
      exact absurd hlarge (by decide)

def breaksOf (offset : Nat) (bytes : List UInt8) : List Nat :=
  (bytes.zipIdx offset).filterMap fun (byte, place) => if byte = newline then
    some (place + 1) else none

theorem breaksOf_cons (offset : Nat) (byte : UInt8) (rest : List UInt8) :
    breaksOf offset (byte :: rest) =
      if byte = newline then (offset + 1) :: breaksOf (offset + 1) rest
      else breaksOf (offset + 1) rest := by
  rw [breaksOf, List.zipIdx_cons, List.filterMap_cons]
  split <;> simp_all [breaksOf]

theorem breaksOf_append (offset : Nat) (left right : List UInt8) :
    breaksOf offset (left ++ right) =
      breaksOf offset left ++ breaksOf (offset + left.length) right := by
  rw [breaksOf, List.zipIdx_append, List.filterMap_append]
  rfl

theorem breaksOf_eq_nil {bytes : List UInt8} (hplain : newline ∉ bytes)
    (offset : Nat) :
    breaksOf offset bytes = [] := by
  induction bytes generalizing offset with
  | nil => rfl
  | cons byte rest ih =>
      rw [List.mem_cons, not_or] at hplain
      rw [breaksOf_cons, if_neg (Ne.symm hplain.1), ih hplain.2]

theorem breaksFrom_eq_breaksOf (offset : Nat) (chars : List Char) :
    breaksFrom offset chars =
      breaksOf offset (chars.flatMap String.utf8EncodeChar) := by
  induction chars generalizing offset with
  | nil => rfl
  | cons c rest ih =>
      rw [List.flatMap_cons, breaksOf_append, String.length_utf8EncodeChar,
        breaksFrom, ih]
      by_cases hc : c = '\n'
      case pos =>
          subst hc
          rfl
      case neg =>
          rw [if_neg hc, breaksOf_eq_nil (newline_notMem_utf8EncodeChar hc),
            List.nil_append]

theorem mem_breaksOf {offset : Nat} {bytes : List UInt8} {place : Nat}
    (hplace : place ∈ breaksOf offset bytes) :
    offset < place ∧ place ≤ offset + bytes.length := by
  induction bytes generalizing offset with
  | nil => exact absurd hplace List.not_mem_nil
  | cons byte rest ih =>
      have hrest : place ∈ breaksOf (offset + 1) rest → offset < place ∧
          place ≤ offset + (byte :: rest).length := fun hplace => by
        have hinside := ih hplace
        rw [List.length_cons]
        omega
      rw [breaksOf_cons] at hplace
      split at hplace
      case isTrue =>
          rcases List.mem_cons.mp hplace with rfl | hplace
          · simp
          · exact hrest hplace
      case isFalse => exact hrest hplace

theorem pairwise_breaksOf (offset : Nat) (bytes : List UInt8) :
    (breaksOf offset bytes).Pairwise (· < ·) := by
  induction bytes generalizing offset with
  | nil => exact .nil
  | cons byte rest ih =>
      rw [breaksOf_cons]
      split
      case isTrue =>
          exact .cons (fun _ hplace => (mem_breaksOf hplace).1) (ih _)
      case isFalse => exact ih _

/-- There are as many line breaks up to an offset as bytes of line breaks before
it. -/
theorem length_takeWhile_breaksOf (offset count : Nat) (bytes : List UInt8) :
    ((breaksOf offset bytes).takeWhile (· ≤ offset + count)).length =
      (bytes.take count).count newline := by
  induction bytes generalizing offset count with
  | nil => simp [breaksOf]
  | cons byte rest ih =>
      cases count with
      | zero =>
          have hnone :
              (breaksOf offset (byte :: rest)).takeWhile (· ≤ offset + 0) =
                [] := by
            cases hbreaks : breaksOf offset (byte :: rest) with
            | nil => rfl
            | cons place places =>
                have hplace := (mem_breaksOf (hbreaks ▸ List.mem_cons_self)).1
                exact List.takeWhile_cons_of_neg (by simpa using hplace)
          rw [hnone, List.take_zero]
          rfl
      | succ count =>
          have hrest := ih (offset + 1) count
          rw [Nat.add_right_comm, Nat.add_assoc] at hrest
          rw [breaksOf_cons, List.take_succ_cons, List.count_cons, ← hrest]
          by_cases hbyte : byte = newline
          case pos =>
              rw [if_pos hbyte, List.takeWhile_cons_of_pos (by simp)]
              simp [hbyte]
          case neg => simp [hbyte]

/-- The offsets at which the lines of a text start: its beginning, and after
each byte that is a line break. -/
def startsOf (text : String) : List Nat :=
  0 :: breaksOf 0 (bytes text)

def starts (lines : Lines) : List Nat :=
  0 :: lines.breaks

structure Ordered (lines : Lines) : Prop where
  ordered : lines.starts.Pairwise (· < ·)
  inside : ∀ start ∈ lines.starts, start ≤ lines.size

theorem breaks_ofText (text : String) :
    (ofText text).breaks = breaksOf 0 (bytes text) := by
  rw [bytes_eq_flatMap, ← breaksFrom_eq_breaksOf]
  rfl

theorem starts_ofText (text : String) :
    (ofText text).starts = startsOf text := by
  rw [starts, breaks_ofText, startsOf]

theorem ordered_ofText (text : String) : (ofText text).Ordered := by
  have hmem : ∀ place ∈ breaksOf 0 (bytes text),
      0 < place ∧ place ≤ text.utf8ByteSize := by
    intro place hplace
    have hinside := mem_breaksOf hplace
    rwa [Nat.zero_add, length_bytes] at hinside
  refine ⟨?_, ?_⟩
  · rw [starts_ofText]
    exact .cons (fun place hplace => (hmem place hplace).1)
      (pairwise_breaksOf 0 _)
  · rw [starts_ofText]
    exact List.forall_mem_cons.mpr ⟨Nat.zero_le _,
      fun place hplace => (hmem place hplace).2⟩

/-- An offset is on a line: it is not before its start, and before that of the
next line. -/
structure OnLine (lines : Lines) (line start offset : Nat) : Prop where
  start_eq : lines.starts[line]? = some start
  start_le : start ≤ offset
  lt_next : ∀ next, lines.starts[line + 1]? = some next → offset < next

variable {lines : Lines}

theorem Ordered.le_of_onLine (hordered : lines.Ordered)
    {line line' start start' offset offset' : Nat}
    (honLine : lines.OnLine line start offset)
    (honLine' : lines.OnLine line' start' offset') (hle : offset ≤ offset') :
    line ≤ line' := by
  refine Nat.le_of_not_lt fun hlt => ?_
  obtain ⟨hline, hstart⟩ := List.getElem?_eq_some_iff.mp honLine.start_eq
  have hnext : line' + 1 < lines.starts.length := by omega
  have hbefore := honLine'.lt_next _ (List.getElem?_eq_getElem hnext)
  have hafter : lines.starts[line' + 1] ≤ lines.starts[line] := by
    rcases Nat.eq_or_lt_of_le (show line' + 1 ≤ line by omega) with
      hsame | hless
    · simp only [hsame, Nat.le_refl]
    · exact Nat.le_of_lt
        (List.pairwise_iff_getElem.mp hordered.ordered _ _ hnext hline hless)
  have hstart_le := honLine.start_le
  omega

theorem Ordered.onLine_unique (hordered : lines.Ordered)
    {line line' start start' offset : Nat}
    (honLine : lines.OnLine line start offset)
    (honLine' : lines.OnLine line' start' offset) :
    line = line' ∧ start = start' := by
  have hline : line = line' := Nat.le_antisymm
    (hordered.le_of_onLine honLine honLine' (Nat.le_refl offset))
    (hordered.le_of_onLine honLine' honLine (Nat.le_refl offset))
  subst hline
  exact ⟨rfl, Option.some.inj (honLine.start_eq.symm.trans honLine'.start_eq)⟩

theorem getElem?_cons_append (first : Nat) (before after : List Nat) :
    (first :: (before ++ after))[before.length]? =
      some (before.getLastD first) := by
  induction before generalizing first with
  | nil => rfl
  | cons place before ih =>
      have hlast : (place :: before).getLastD first =
          before.getLastD place := by
        cases before <;> rfl
      rw [hlast]
      exact ih place

theorem exists_onLine {offset : Nat} (hoffset : offset ≤ lines.size) : ∃ start,
    lines.OnLine (lines.position offset).line start offset ∧
      start + (lines.position offset).column = offset := by
  have hbreaks :=
    List.takeWhile_append_dropWhile (p := (· ≤ offset)) (l := lines.breaks)
  generalize hbefore : lines.breaks.takeWhile (· ≤ offset) = before at hbreaks
  have hposition : lines.position offset = ⟨before.length,
      offset - before.getLastD 0⟩ := by
    rw [position, Nat.min_eq_left hoffset, hbefore]
  have hstart : before.getLastD 0 ≤ offset := by
    rcases List.eq_nil_or_concat before with rfl | ⟨front, last, rfl⟩
    · exact Nat.zero_le offset
    · have hlast : last ∈ lines.breaks.takeWhile (· ≤ offset) := by
        rw [hbefore, List.concat_eq_append]
        exact List.mem_append_right front (List.mem_singleton_self last)
      rw [List.concat_eq_append, List.getLastD_concat]
      exact of_decide_eq_true
        (List.all_eq_true.mp List.all_takeWhile last hlast)
  rw [hposition]
  refine ⟨before.getLastD 0, ⟨?_, hstart, fun next hnext => ?_⟩,
    Nat.add_sub_cancel' hstart⟩
  · rw [starts, ← hbreaks]
    exact getElem?_cons_append 0 before _
  · rw [starts, List.getElem?_cons_succ, ← hbreaks,
      List.getElem?_append_right (Nat.le_refl _), Nat.sub_self,
      ← List.head?_eq_getElem?] at hnext
    have hnot := List.head?_dropWhile_not (· ≤ offset) lines.breaks
    rw [hnext] at hnot
    simpa using hnot

theorem Ordered.position_eq (hordered : lines.Ordered) {line start offset : Nat}
    (hoffset : offset ≤ lines.size) (honLine : lines.OnLine line start offset) :
    lines.position offset = ⟨line, offset - start⟩ := by
  obtain ⟨start', honLine', hcolumn⟩ := exists_onLine hoffset
  obtain ⟨hline, hstart⟩ := hordered.onLine_unique honLine honLine'
  subst hstart
  rw [← hcolumn, Nat.add_sub_cancel_left, hcolumn, hline]

theorem Ordered.position_before (hordered : lines.Ordered)
    {offset offset' : Nat} (hlt : offset < offset')
    (hoffset' : offset' ≤ lines.size) :
    (lines.position offset).Before (lines.position offset') := by
  obtain ⟨start, honLine, hcolumn⟩ :=
    exists_onLine (Nat.le_trans (Nat.le_of_lt hlt) hoffset')
  obtain ⟨start', honLine', hcolumn'⟩ := exists_onLine hoffset'
  rcases Nat.eq_or_lt_of_le
    (hordered.le_of_onLine honLine honLine'
      (Nat.le_of_lt hlt)) with hline | hline
  · rw [hline] at honLine
    have hstart :=
      Option.some.inj (honLine.start_eq.symm.trans honLine'.start_eq)
    exact .inr ⟨hline, by omega⟩
  · exact .inl hline

theorem offset?_of_onLine {line start column : Nat}
    (hsize : lines.size ≤ maxOffset) (hinside : start + column ≤ lines.size)
    (honLine : lines.OnLine line start (start + column)) :
    lines.offset? ⟨line, column⟩ = .ok (some (start + column)) := by
  have hstart : (0 :: lines.breaks)[line]? = some start := honLine.start_eq
  have hmin :
      min (start + column) ((0 :: lines.breaks)[line + 1]?.getD lines.size) =
        start + column := by
    refine Nat.min_eq_left ?_
    cases hnext : (0 :: lines.breaks)[line + 1]? with
    | none => exact hinside
    | some next => exact Nat.le_of_lt (honLine.lt_next next hnext)
  rw [offset?]
  simp only [hstart, hmin, if_neg (Nat.not_lt.mpr (Nat.le_trans hinside hsize))]

/-- A text has a position if it has the line, and the column is before the start
of the next line, or at most at the end of the text on the last line. -/
def Holds (text : String) (position : Position) : Prop :=
  ∃ start, (startsOf text)[position.line]? = some start ∧
    match (startsOf text)[position.line + 1]? with
    | some next => start + position.column < next
    | none => start + position.column ≤ text.utf8ByteSize

theorem exists_onLine_of_holds {text : String} {position : Position}
    (hholds : Holds text position) :
    ∃ start, start + position.column ≤ text.utf8ByteSize ∧
      (ofText text).OnLine position.line start (start + position.column) := by
  obtain ⟨start, hstart, hcolumn⟩ := hholds
  rw [← starts_ofText] at hstart hcolumn
  cases hnext : (ofText text).starts[position.line + 1]? with
  | none =>
      rw [hnext] at hcolumn
      exact ⟨start, hcolumn, hstart, Nat.le_add_right _ _, by simp [hnext]⟩
  | some next =>
      rw [hnext] at hcolumn
      have hinside :=
        (ordered_ofText text).inside next (List.mem_of_getElem? hnext)
      refine ⟨start, Nat.le_trans (Nat.le_of_lt hcolumn) hinside, hstart,
        Nat.le_add_right _ _, ?_⟩
      intro next' hnext'
      rwa [← Option.some.inj (hnext.symm.trans hnext')]

theorem Ordered.span_ordered (hordered : lines.Ordered) (range : Range) :
    (lines.span range).start.atMost (lines.span range).stop = true := by
  have hclamped : ∀ offset,
      lines.position offset = lines.position (min offset lines.size) := by
    intro offset
    rw [position, position, Nat.min_assoc, Nat.min_self]
  change (lines.position range.start).atMost (lines.position range.stop) = true
  rw [hclamped range.start, hclamped range.stop]
  have hrange := range.start_le_stop
  rcases Nat.eq_or_lt_of_le
    (show min range.start lines.size ≤ min range.stop lines.size by omega) with
    hsame | hlt
  · rw [hsame]
    exact Position.atMost_self _
  · exact (hordered.position_before hlt (Nat.min_le_right _ _)).atMost

/-- In a text whose offsets have 32 bits, an offset is on the line that as many
line breaks come before, its position leads back to it, and positions are in the
order of offsets, so no span ends before it starts. And each position that the
text has is that of the offset it leads to. -/
theorem positions_of_offsets {text : String}
    (hsize : text.utf8ByteSize ≤ maxOffset) :
    let lines := ofText text
    (∀ offset ≤ text.utf8ByteSize,
      (lines.position offset).line = ((bytes text).take offset).count newline ∧
      lines.offset? (lines.position offset) = .ok (some offset)) ∧
    (∀ offset offset', offset < offset' → offset' ≤ text.utf8ByteSize →
      (lines.position offset).Before (lines.position offset')) ∧
    (∀ range, (lines.span range).start.atMost (lines.span range).stop = true) ∧
    ∀ position, Holds text position → ∃ offset,
      lines.offset? position = .ok (some offset) ∧
        lines.position offset = position := by
  intro lines
  have hordered : lines.Ordered := ordered_ofText text
  have hlimit : lines.size ≤ maxOffset := hsize
  refine ⟨fun offset hoffset => ⟨?_, ?_⟩, fun offset offset' hlt hoffset' => ?_,
    hordered.span_ordered, fun position hholds => ?_⟩
  · have hcount := length_takeWhile_breaksOf 0 offset (bytes text)
    rw [Nat.zero_add, ← breaks_ofText] at hcount
    rw [← hcount, position,
      Nat.min_eq_left (show offset ≤ lines.size from hoffset)]
  · obtain ⟨start, honLine, hcolumn⟩ :=
      exists_onLine (show offset ≤ lines.size from hoffset)
    have hleads :=
      offset?_of_onLine hlimit (hcolumn.symm ▸ hoffset) (hcolumn.symm ▸ honLine)
    rwa [hcolumn] at hleads
  · exact hordered.position_before hlt hoffset'
  · obtain ⟨start, hinside, honLine⟩ := exists_onLine_of_holds hholds
    refine ⟨start + position.column, offset?_of_onLine hlimit hinside honLine,
      ?_⟩
    rw [hordered.position_eq hinside honLine, Nat.add_sub_cancel_left]

/-- An empty line, a character of two bytes, and a line break at the end, after
which the last line is. -/
theorem positions_of_offsets_ended :
    let text := "é\n\nb\n"
    let lines := ofText text
    text.utf8ByteSize ≤ maxOffset ∧
      (lines.position 4).line = ((bytes text).take 4).count newline ∧
      lines.offset? (lines.position 4) = .ok (some 4) ∧
      (lines.position 5).Before (lines.position 6) ∧ Holds text ⟨3, 0⟩ ∧
      ∃ offset, lines.offset? ⟨3, 0⟩ = .ok (some offset) ∧
        lines.position offset = ⟨3, 0⟩ := by
  intro text lines
  have hsize : text.utf8ByteSize ≤ maxOffset := by decide +kernel
  have hstarts : startsOf text = [0, 3, 4, 6] := by decide +kernel
  have hend : 6 ≤ text.utf8ByteSize := by decide +kernel
  have hholds : Holds text ⟨3, 0⟩ := by
    rw [Holds, hstarts]
    exact ⟨6, rfl, hend⟩
  obtain ⟨hback, hbefore, -, hholding⟩ := positions_of_offsets hsize
  obtain ⟨hline, hoffset⟩ := hback 4 (by decide +kernel)
  exact ⟨hsize, hline, hoffset, hbefore 5 6 (by decide) (by decide +kernel),
    hholds, hholding _ hholds⟩

end Lines

end PklAnalysis
