import PklAnalysis.Token.Literal

/-!
The two passes over a string literal agree. The second pass sees only what the
first has taken, so the moves of the scan must not depend on the text after it;
and it scans interpolated code apart from the literal around it, so a scan
inside nested frames must fall into scans of its parts.
-/

namespace PklAnalysis.Token.Literal

@[simp] theorem Scan.closed_push (c : Char) (scan : Scan) :
    (scan.push c).closed = scan.closed :=
  rfl

/-! Scans of what a scan has taken. -/

theorem delimiter_length_pos (multiline : Bool) :
    0 < (delimiter multiline).length := by
  cases multiline <;> decide

theorem delimiter_isPrefixOf {multiline : Bool} {c : Char} {rest : List Char}
    (hdelimiter : (delimiter multiline).isPrefixOf (c :: rest) = true) :
    c = '"' ∧ (delimiter multiline).length - 1 ≤ rest.length := by
  have hstarts := List.isPrefixOf_iff_prefix.mp hdelimiter
  have hlength := hstarts.length_le
  simp only [List.length_cons] at hlength
  refine ⟨?_, by omega⟩
  cases multiline <;> exact (List.cons_prefix_cons.mp hstarts).1.symm

theorem delimiter_isPrefixOf_append {multiline : Bool} {c : Char}
    {near : List Char} (far : List Char)
    (hnear : (delimiter multiline).length - 1 ≤ near.length) :
    (delimiter multiline).isPrefixOf (c :: (near ++ far)) =
      (delimiter multiline).isPrefixOf (c :: near) := by
  rw [Bool.eq_iff_iff, List.isPrefixOf_iff_prefix, List.isPrefixOf_iff_prefix]
  constructor
  · intro hstarts
    refine List.prefix_of_prefix_length_le hstarts
      (List.prefix_append (c :: near) far) ?_
    simp only [List.length_cons]
    omega
  · intro hstarts
    exact hstarts.trans (List.prefix_append (c :: near) far)

theorem delimiter_not_isPrefixOf {multiline : Bool} {c : Char}
    {near far : List Char}
    (hnot : (delimiter multiline).isPrefixOf (c :: (near ++ far)) = false) :
    (delimiter multiline).isPrefixOf (c :: near) = false := by
  cases hnear : (delimiter multiline).isPrefixOf (c :: near) with
  | false => rfl
  | true =>
      rw [delimiter_isPrefixOf_append far (delimiter_isPrefixOf hnear).2, hnear]
        at hnot
      cases hnot

theorem opening?_eq_some {multiline : Bool} {chars : List Char}
    (hopening : opening? chars = some multiline) :
    (delimiter multiline).isPrefixOf chars = true := by
  rw [opening?] at hopening
  split at hopening
  case isTrue htriple =>
      cases hopening
      exact htriple
  case isFalse =>
      split at hopening
      case isTrue hsingle =>
          cases hopening
          exact hsingle
      case isFalse => cases hopening

theorem more_le_of_move {frame : Frame} {outer frames : List Frame} {c : Char}
    {rest : List Char} {more : Nat}
    (hmove : move frame outer c rest = .take more frames) :
    more ≤ rest.length := by
  cases frame with
  | body multiline =>
      rw [move, bodyMove] at hmove
      cases rest <;> grind [→ delimiter_isPrefixOf]
  | code depth =>
      rw [move, codeMove.eq_def] at hmove
      grind [→ opening?_eq_some, → delimiter_isPrefixOf]

theorem move_append {frame : Frame} {outer frames : List Frame} {c : Char}
    {near far : List Char} {more : Nat} (hmore : more ≤ near.length)
    (hmove : move frame outer c (near ++ far) = .take more frames) :
    move frame outer c near = .take more frames := by
  cases frame with
  | body multiline =>
      rw [move, bodyMove] at hmove ⊢
      cases near <;>
        grind [delimiter_isPrefixOf_append, delimiter_not_isPrefixOf,
          → delimiter_isPrefixOf]
  | code depth =>
      rw [move, codeMove.eq_def] at hmove ⊢
      grind [opening?, delimiter_isPrefixOf_append, delimiter_not_isPrefixOf]

theorem scanFrom_zero_nil (chars : List Char) :
    scanFrom 0 [] chars = .ok ⟨[], chars, true⟩ := by
  cases chars <;> rfl

theorem pending_le_taken {pending : Nat} {frames : List Frame}
    {chars : List Char} {scan : Scan}
    (hscan : scanFrom pending frames chars = .ok scan)
    (hpending : pending ≤ chars.length) :
    pending ≤ scan.taken.length := by
  fun_induction scanFrom pending frames chars generalizing scan with
  | case1 => exact Nat.le_trans hpending (Nat.zero_le _)
  | case2 frames c rest pending ih =>
      obtain ⟨inner, hinner, rfl⟩ := Scan.exists_of_push hscan
      have hle := ih hinner (Nat.le_of_succ_le_succ hpending)
      exact Nat.succ_le_succ hle
  | case3 | case4 | case5 | case6 => exact Nat.zero_le _

theorem scanFrom_taken {pending : Nat} {frames : List Frame} {chars : List Char}
    {scan : Scan} (hscan : scanFrom pending frames chars = .ok scan) :
    scanFrom pending frames scan.taken = .ok { scan with rest := [] } := by
  fun_induction scanFrom pending frames chars generalizing scan with
  | case1 =>
      cases hscan
      simp [scanFrom]
  | case2 frames c rest pending ih =>
      obtain ⟨inner, hinner, rfl⟩ := Scan.exists_of_push hscan
      simp [Scan.push, scanFrom, ih hinner, Except.map]
  | case3 | case5 =>
      cases hscan
      simp [scanFrom]
  | case4 c rest frame outer more frames hmove ih =>
      obtain ⟨inner, hinner, rfl⟩ := Scan.exists_of_push hscan
      have hmore := pending_le_taken hinner (more_le_of_move hmove)
      rw [scanFrom_append hinner] at hmove
      simp [Scan.push, scanFrom, move_append hmore hmove, ih hinner, Except.map]
  | case6 => cases hscan

/-! Scans of interpolated code inside other frames. -/

/-- Inside interpolated code, maybe deeper; or inside nothing. -/
def Grounded (frames : List Frame) : Prop :=
  ∀ multiline, frames.getLast? ≠ some (.body multiline)

theorem grounded_cons {frame next : Frame} {outer : List Frame} :
    Grounded (frame :: next :: outer) ↔ Grounded (next :: outer) := by
  simp only [Grounded, List.getLast?_cons_cons]

theorem move_outer {frame : Frame} {inner : List Frame} (outer : List Frame)
    (c : Char) (rest : List Char) (hground : Grounded (frame :: inner)) :
    move frame (inner ++ outer) c rest =
      match move frame inner c rest with
      | .take more frames => .take more (frames ++ outer)
      | .stop => .stop
      | .fail => .fail := by
  cases frame with
  | body multiline =>
      cases inner with
      | nil => exact absurd rfl (hground multiline)
      | cons next inner =>
          simp only [move, bodyMove]
          grind
  | code depth =>
      simp only [move]
      fun_cases codeMove depth inner c rest <;> simp_all [codeMove]

theorem grounded_move {frame : Frame} {inner : List Frame} (c : Char)
    (rest : List Char) (hground : Grounded (frame :: inner)) :
    match move frame inner c rest with
    | .take more frames => Grounded frames ∧ (frames = [] → c = ')' ∧ more = 0)
    | .stop => False
    | .fail => True := by
  cases frame with
  | body multiline =>
      cases inner with
      | nil => exact absurd rfl (hground multiline)
      | cons next inner =>
          simp only [move, bodyMove]
          grind [grounded_cons]
  | code depth =>
      simp only [move]
      cases inner <;> fun_cases codeMove <;> simp_all [Grounded]

def Scan.append (first second : Scan) : Scan :=
  { second with taken := first.taken ++ second.taken }

/-- The scan of interpolated code is over with the text, or a closed one goes on
with the frames around it. -/
inductive Scan.Continues (outer : List Frame) (first : Scan) : Scan → Prop
  | unfinished (hclosed : first.closed = false) (hrest : first.rest = []) :
      Continues outer first first
  | finished {second : Scan} (hclosed : first.closed = true)
      (hsecond : scanFrom 0 outer first.rest = .ok second) :
      Continues outer first (first.append second)

theorem Scan.Continues.push {outer : List Frame} {first scan : Scan} (c : Char)
    (hnext : first.Continues outer scan) :
    (first.push c).Continues outer (scan.push c) := by
  cases hnext with
  | unfinished hclosed hrest => exact .unfinished hclosed hrest
  | finished hclosed hsecond => exact .finished hclosed hsecond

/-- A scan inside interpolated code inside other frames scans the code alone,
and goes on with the other frames if the code is closed. -/
theorem scanFrom_outer {pending : Nat} {inner outer : List Frame}
    {chars : List Char} {scan : Scan} (hground : Grounded inner)
    (hscan : scanFrom pending (inner ++ outer) chars = .ok scan) :
    ∃ first, scanFrom pending inner chars = .ok first ∧
      first.Continues outer scan := by
  induction chars generalizing pending inner scan with
  | nil =>
      cases pending with
      | zero =>
          cases inner with
          | nil => exact ⟨⟨[], [], true⟩, rfl, .finished rfl hscan⟩
          | cons frame inner =>
              cases hscan
              exact ⟨⟨[], [], false⟩, rfl, .unfinished rfl rfl⟩
      | succ pending =>
          cases hscan
          exact ⟨⟨[], [], false⟩, by simp [scanFrom], .unfinished rfl rfl⟩
  | cons c rest ih =>
      have hpush : ∀ {more : Nat} {frames : List Frame} {last : Scan},
          Grounded frames → scanFrom more (frames ++ outer) rest = .ok last →
          ∃ first, (scanFrom more frames rest).map (Scan.push c) = .ok first ∧
            first.Continues outer (last.push c) := by
        intro more frames last hframes hlast
        obtain ⟨first, hfirst, hnext⟩ := ih hframes hlast
        exact ⟨first.push c, by rw [hfirst]; rfl, hnext.push c⟩
      cases pending with
      | succ pending =>
          obtain ⟨last, hlast, rfl⟩ := Scan.exists_of_push hscan
          exact hpush hground hlast
      | zero =>
          cases inner with
          | nil => exact ⟨⟨[], c :: rest, true⟩, rfl, .finished rfl hscan⟩
          | cons frame inner =>
              have hafter := grounded_move c rest hground
              simp only [List.cons_append, scanFrom,
                move_outer outer c rest hground] at hscan ⊢
              cases hmove : move frame inner c rest with
              | take more frames =>
                  simp only [hmove] at hscan hafter ⊢
                  obtain ⟨last, hlast, rfl⟩ := Scan.exists_of_push hscan
                  exact hpush hafter.1 hlast
              | stop => simp only [hmove] at hafter
              | fail =>
                  simp only [hmove] at hscan
                  cases hscan

theorem getLast?_taken_of_closed {pending : Nat} {frames : List Frame}
    {chars : List Char} {scan : Scan} (hground : Grounded frames)
    (hframes : frames ≠ []) (hscan : scanFrom pending frames chars = .ok scan)
    (hclosed : scan.closed = true) :
    scan.taken.getLast? = some ')' := by
  fun_induction scanFrom pending frames chars generalizing scan with
  | case1 => 
      cases hscan
      simp at hclosed
      exact absurd hclosed.2 hframes
  | case2 frames c rest pending ih =>
      obtain ⟨inner, hinner, rfl⟩ := Scan.exists_of_push hscan
      have hlast := ih hground hframes hinner hclosed
      simp [Scan.push, List.getLast?_cons, hlast]
  | case3 => exact absurd rfl hframes
  | case4 c rest frame outer more frames hmove ih =>
      obtain ⟨inner, hinner, rfl⟩ := Scan.exists_of_push hscan
      have hafter := grounded_move c rest hground
      simp only [hmove] at hafter
      cases hempty : frames with
      | nil =>
          obtain ⟨rfl, rfl⟩ := hafter.2 hempty
          rw [hempty, scanFrom_zero_nil] at hinner
          cases hinner
          rfl
      | cons next frames' =>
          have hlast := ih hafter.1 (by simp [hempty]) hinner hclosed
          simp [Scan.push, List.getLast?_cons, hlast]
  | case5 =>
      cases hscan
      cases hclosed
  | case6 => cases hscan

theorem scanCode_closed {chars : List Char} {scan : Scan}
    (hscan : scanCode chars = .ok scan) (hclosed : scan.closed = true) :
    scan.taken.dropLast ++ [')'] = scan.taken := by
  have hground : Grounded [.code 0] := by simp [Grounded]
  have hlast := getLast?_taken_of_closed hground (by simp) hscan hclosed
  obtain ⟨front, hfront⟩ := List.getLast?_eq_some_iff.mp hlast
  rw [hfront, List.dropLast_concat]

structure Piece.Inner (piece : Piece) : Prop where
  role : piece.role ≠ .delimiter
  chars : piece.role ≠ .code → piece.chars ≠ []

/-- Code at the end of some pieces comes right after what opens it. -/
def OpensCode (pieces : List Piece) : Prop :=
  ∀ front code, pieces = front ++ [⟨.code, code⟩] →
    ∃ first, front = first ++ [⟨.opener, ['\\', '(']⟩]

theorem OpensCode.append {left right : List Piece} (hleft : OpensCode left)
    (hright : OpensCode right) : OpensCode (left ++ right) := by
  intro front code hpieces
  rcases List.eq_nil_or_concat right with rfl | ⟨init, last, rfl⟩
  · exact hleft front code (by rwa [List.append_nil] at hpieces)
  · rw [List.concat_eq_append] at hpieces hright
    rw [← List.append_assoc] at hpieces
    obtain ⟨rfl, hlast⟩ := List.append_inj' hpieces rfl
    obtain ⟨first, rfl⟩ := hright init code (congrArg (init ++ ·) hlast)
    exact ⟨left ++ first, (List.append_assoc _ _ _).symm⟩

theorem opensCode_of_role_ne {pieces : List Piece}
    (hpieces : ∀ piece ∈ pieces, piece.role ≠ .code) :
    OpensCode pieces := by
  rintro front code rfl
  exact absurd rfl (hpieces ⟨.code, code⟩ (by simp))

/-- The pieces of a body make up its text; among them is a delimiter only if the
literal is closed, and then it is the last. -/
structure Pieces (multiline closed : Bool) (chars : List Char)
    (pieces : List Piece) : Prop where
  chars : pieces.flatMap Piece.chars = chars
  ends : ∃ front, (∀ piece ∈ front, piece.Inner) ∧
    pieces = front ++ if closed then [⟨.delimiter, delimiter multiline⟩] else []
  opens : OpensCode pieces

theorem Pieces.chars_ne_nil {multiline closed : Bool} {chars : List Char}
    {pieces : List Piece} (hpieces : Pieces multiline closed chars pieces) :
    ∀ piece ∈ pieces, piece.role ≠ .code → piece.chars ≠ [] := by
  obtain ⟨-, ⟨front, hfront, rfl⟩, -⟩ := hpieces
  intro piece hpiece
  cases List.mem_append.mp hpiece with
  | inl hpiece => exact (hfront piece hpiece).chars
  | inr hpiece =>
      cases closed with
      | false => cases hpiece
      | true =>
          cases List.mem_singleton.mp hpiece
          exact fun _ =>
            List.ne_nil_of_length_pos (delimiter_length_pos multiline)

theorem Pieces.length_chars_le {multiline closed : Bool} {chars : List Char}
    {pieces : List Piece} (hpieces : Pieces multiline closed chars pieces)
    {piece : Piece} (hpiece : piece ∈ pieces) :
    piece.chars.length ≤ chars.length := by
  rw [← hpieces.chars]
  obtain ⟨before, after, rfl⟩ := List.append_of_mem hpiece
  simp only [List.flatMap_append, List.flatMap_cons, List.length_append]
  omega

theorem Pieces.prepend {multiline closed : Bool} {chars : List Char}
    {before pieces : List Piece} (hbefore : ∀ piece ∈ before, piece.Inner)
    (hopens : OpensCode before)
    (hpieces : Pieces multiline closed chars pieces) :
    Pieces multiline closed (before.flatMap Piece.chars ++ chars)
      (before ++ pieces) := by
  obtain ⟨hchars, ⟨front, hfront, rfl⟩, hopens'⟩ := hpieces
  refine ⟨by rw [List.flatMap_append, hchars],
    ⟨before ++ front, ?_, by rw [List.append_assoc]⟩, hopens.append hopens'⟩
  intro piece hpiece
  cases List.mem_append.mp hpiece with
  | inl hpiece => exact hbefore piece hpiece
  | inr hpiece => exact hfront piece hpiece

theorem pieces_delimiter (multiline : Bool) :
    Pieces multiline true (delimiter multiline)
    [⟨.delimiter, delimiter multiline⟩] :=
  ⟨by simp, ⟨[], by simp, rfl⟩, opensCode_of_role_ne (by simp)⟩

theorem pieces_nil (multiline : Bool) : Pieces multiline false [] [] :=
  ⟨rfl, ⟨[], by simp, rfl⟩, opensCode_of_role_ne nofun⟩

theorem inner_gathered (chunk : List Char) :
    ∀ piece ∈ gathered chunk, piece.Inner := by
  intro piece hpiece
  rw [gathered] at hpiece
  split at hpiece
  case isTrue => cases hpiece
  case isFalse hchunk =>
      cases List.mem_singleton.mp hpiece
      exact ⟨by simp, by simpa using hchunk⟩

theorem opensCode_gathered (chunk : List Char) :
    OpensCode (gathered chunk) := by
  refine opensCode_of_role_ne fun piece hpiece => ?_
  rw [gathered] at hpiece
  split at hpiece
  case isTrue => cases hpiece
  case isFalse =>
      cases List.mem_singleton.mp hpiece
      simp

theorem chars_gathered (chunk : List Char) :
    (gathered chunk).flatMap Piece.chars = chunk.reverse := by
  rw [gathered]
  split
  case isTrue hchunk => simp [List.isEmpty_iff.mp hchunk]
  case isFalse => simp

theorem inner_codePieces (scan : Scan) :
    ∀ piece ∈ codePieces scan, piece.Inner := by
  intro piece hpiece
  rw [codePieces] at hpiece
  split at hpiece
  case isTrue =>
      rcases List.mem_cons.mp hpiece with rfl | hcloser
      · exact ⟨by simp, by simp⟩
      · cases List.mem_singleton.mp hcloser
        exact ⟨by simp, by simp⟩
  case isFalse =>
      cases List.mem_singleton.mp hpiece
      exact ⟨by simp, by simp⟩

theorem opensCode_codePieces (scan : Scan) :
    OpensCode (⟨.opener, ['\\', '(']⟩ :: codePieces scan) := by
  intro front code hpieces
  rw [codePieces] at hpieces
  split at hpieces
  case isTrue =>
      have hlast := congrArg List.getLast? hpieces
      simp at hlast
  case isFalse =>
      have hfront := congrArg List.dropLast hpieces
      rw [List.dropLast_concat] at hfront
      exact ⟨[], hfront.symm⟩

theorem chars_codePieces {chars : List Char} {scan : Scan}
    (hscan : scanCode chars = .ok scan) :
    (codePieces scan).flatMap Piece.chars = scan.taken := by
  rw [codePieces]
  split
  case isTrue hclosed => simpa using scanCode_closed hscan hclosed
  case isFalse => simp

theorem Pieces.code {multiline closed : Bool} {rest further : List Char}
    {chunk : List Char} {pieces : List Piece} {scan : Scan}
    (hscan : scanCode rest = .ok scan)
    (hpieces : Pieces multiline closed further pieces) :
    Pieces multiline closed
      (chunk.reverse ++ '\\' :: '(' :: (scan.taken ++ further))
      (gathered chunk ++ ⟨.opener, ['\\', '(']⟩ :: codePieces scan ++
        pieces) := by
  have hinner : ∀ piece ∈ ⟨.opener, ['\\', '(']⟩ :: codePieces scan,
      piece.Inner :=
    List.forall_mem_cons.mpr ⟨⟨by simp, by simp⟩, inner_codePieces scan⟩
  have hcode := hpieces.prepend hinner (opensCode_codePieces scan)
  rw [List.flatMap_cons, chars_codePieces hscan] at hcode
  have hwhole := hcode.prepend (inner_gathered chunk) (opensCode_gathered chunk)
  rw [chars_gathered] at hwhole
  simpa using hwhole

theorem scan_cons_of_ascii {multiline : Bool} {c : Char} {rest : List Char}
    {scan : Scan}
    (hescape : ∀ next further, c = '\\' → rest = next :: further → False)
    (hdelimiter : ¬(delimiter multiline).isPrefixOf (c :: rest) = true)
    (hscan : Literal.scan multiline (c :: rest) = .ok scan)
    (hrest : scan.rest = []) :
    c.toNat < 128 ∧ ∃ inner, Literal.scan multiline rest = .ok inner ∧
      scan = inner.push c := by
  have hplain : c = '\\' → rest = [] := by
    intro hbackslash
    cases rest with
    | nil => rfl
    | cons next further => exact (hescape next further hbackslash rfl).elim
  simp only [Literal.scan, scanFrom, move, bodyMove] at hscan ⊢
  grind [Scan.exists_of_push]

theorem scanFrom_pending (pending : Nat) (chars : List Char)
    (hpending : pending ≤ chars.length) :
    scanFrom pending
      [] chars = .ok ⟨chars.take pending, chars.drop pending, true⟩ := by
  induction chars generalizing pending with
  | nil =>
      cases Nat.le_zero.mp hpending
      rfl
  | cons c rest ih =>
      cases pending with
      | zero => rfl
      | succ pending =>
          rw [scanFrom, ih pending (Nat.le_of_succ_le_succ hpending)]
          rfl

theorem scan_cons_of_delimiter {multiline : Bool} {c : Char} {rest : List Char}
    {scan : Scan}
    (hdelimiter : (delimiter multiline).isPrefixOf (c :: rest) = true)
    (hscan : Literal.scan multiline (c :: rest) = .ok scan)
    (hrest : scan.rest = []) :
    c :: rest = delimiter multiline ∧ scan.closed = true := by
  obtain ⟨rfl, hlength⟩ := delimiter_isPrefixOf hdelimiter
  have hmove : move (.body multiline) [] '"' rest =
      .take ((delimiter multiline).length - 1) [] := by
    simp [move, bodyMove, hdelimiter]
  simp only [Literal.scan, scanFrom, hmove, scanFrom_pending _ _ hlength]
    at hscan
  cases hscan
  refine ⟨?_, rfl⟩
  have hstarts := List.isPrefixOf_iff_prefix.mp hdelimiter
  have hle : rest.length ≤ (delimiter multiline).length - 1 :=
    List.drop_eq_nil_iff.mp hrest
  have hpositive := delimiter_length_pos multiline
  refine (hstarts.eq_of_length_le ?_).symm
  rw [List.length_cons]
  omega

theorem scan_escape {multiline : Bool} {c : Char} {rest : List Char}
    {scan : Scan} (hchar : c ≠ '(')
    (hscan : Literal.scan multiline ('\\' :: c :: rest) = .ok scan) :
    ∃ inner, Literal.scan multiline rest = .ok inner ∧
      scan = (inner.push c).push '\\' := by
  have hmove : move (.body multiline) [] '\\' (c :: rest) =
      .take 1 [.body multiline] := by
    simp [move, bodyMove, hchar]
  simp only [Literal.scan, scanFrom, hmove] at hscan
  obtain ⟨middle, hmiddle, rfl⟩ := Scan.exists_of_push hscan
  obtain ⟨inner, hinner, rfl⟩ := Scan.exists_of_push hmiddle
  exact ⟨inner, hinner, rfl⟩

theorem scan_code {multiline : Bool} {rest : List Char} {scan : Scan}
    (hscan : Literal.scan multiline ('\\' :: '(' :: rest) = .ok scan) :
    ∃ first inner,
      scanCode rest = .ok first ∧ first.Continues [.body multiline] inner ∧
      scan = (inner.push '(').push '\\' := by
  have hmove : move (.body multiline) [] '\\' ('(' :: rest) =
      .take 1 [.code 0, .body multiline] := by
    simp [move, bodyMove]
  simp only [Literal.scan, scanFrom, hmove] at hscan
  obtain ⟨middle, hmiddle, rfl⟩ := Scan.exists_of_push hscan
  obtain ⟨inner, hinner, rfl⟩ := Scan.exists_of_push hmiddle
  have hground : Grounded [.code 0] := by simp [Grounded]
  have hcode : scanFrom 0 ([.code 0] ++ [.body multiline]) rest = .ok inner :=
    hinner
  obtain ⟨first, hfirst, hnext⟩ := scanFrom_outer hground hcode
  exact ⟨first, inner, hfirst, hnext, rfl⟩

/-- What the scan of a body takes to the end can be cut into pieces, and they
agree with it. -/
theorem splitFrom_pieces {multiline : Bool} {chunk chars : List Char}
    {scan : Scan} (hscan : Literal.scan multiline chars = .ok scan)
    (hrest : scan.rest = []) :
    ∃ pieces, splitFrom multiline chunk chars = .ok pieces ∧
      Pieces multiline scan.closed (chunk.reverse ++ chars) pieces := by
  fun_induction splitFrom multiline chunk chars generalizing scan with
  | case1 chunk =>
      cases hscan
      have hpieces := (pieces_nil multiline).prepend (inner_gathered chunk)
        (opensCode_gathered chunk)
      rw [chars_gathered] at hpieces
      exact ⟨_, rfl, by simpa using hpieces⟩
  | case2 chunk rest reason hcode =>
      obtain ⟨first, inner, hfirst, -, -⟩ := scan_code hscan
      rw [hfirst] at hcode
      cases hcode
  | case3 chunk rest first hcode ih =>
      obtain ⟨first', inner, hfirst, hnext, rfl⟩ := scan_code hscan
      cases hcode.symm.trans hfirst
      have htaken := scanFrom_append hcode
      rw [Scan.closed_push, Scan.closed_push]
      cases hnext with
      | finished hclosed hsecond =>
          obtain ⟨further, hfurther, hpieces⟩ := ih hsecond hrest
          refine ⟨_, by rw [hfurther]; rfl, ?_⟩
          rw [htaken]
          exact hpieces.code hcode
      | unfinished hclosed hend =>
          rw [hend] at htaken ih ⊢
          rw [hclosed, htaken]
          exact ⟨_, by rw [splitFrom]; rfl, (pieces_nil multiline).code hcode⟩
  | case4 chunk c rest hchar ih =>
      obtain ⟨inner, hinner, rfl⟩ := scan_escape (fun h => hchar h) hscan
      obtain ⟨pieces, hsplit, hpieces⟩ := ih hinner hrest
      exact ⟨pieces, hsplit, by simpa using hpieces⟩
  | case5 chunk c rest hcode hescape hdelimiter =>
      obtain ⟨hchars, hclosed⟩ := scan_cons_of_delimiter hdelimiter hscan hrest
      refine ⟨_, rfl, ?_⟩
      have hpieces :=
        (pieces_delimiter multiline).prepend (inner_gathered chunk)
        (opensCode_gathered chunk)
      rw [chars_gathered] at hpieces
      rw [hclosed, hchars]
      exact hpieces
  | case6 chunk c rest hcode hescape hdelimiter hascii ih =>
      obtain ⟨-, inner, hinner, rfl⟩ :=
        scan_cons_of_ascii hescape hdelimiter hscan hrest
      obtain ⟨pieces, hsplit, hpieces⟩ := ih hinner hrest
      exact ⟨pieces, hsplit, by simpa using hpieces⟩
  | case7 chunk c rest hcode hescape hdelimiter hascii =>
      obtain ⟨hascii', -⟩ := scan_cons_of_ascii hescape hdelimiter hscan hrest
      exact absurd hascii' hascii

theorem split_pieces {multiline : Bool} {chars : List Char} {scan : Scan}
    (hscan : Literal.scan multiline chars = .ok scan) :
    ∃ pieces, split multiline scan.taken = .ok pieces ∧
      Pieces multiline scan.closed scan.taken pieces := by
  have htaken : Literal.scan multiline scan.taken = .ok { scan with
    rest := [] } :=
    scanFrom_taken hscan
  obtain ⟨pieces, hsplit, hpieces⟩ := splitFrom_pieces htaken rfl
  exact ⟨pieces, hsplit, hpieces⟩

end PklAnalysis.Token.Literal
