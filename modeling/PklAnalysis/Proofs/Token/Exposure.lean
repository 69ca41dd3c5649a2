import PklAnalysis.Proofs.Token.Lossless

/-!
Characters beyond ASCII in string literals. Rules say how the body of a literal
and the code in it are read; a character beyond ASCII is exposed where the rules
come to it in a body, rather than to a backslash before it. The scan, which
keeps what it is inside of on a stack, follows the rules, so a text has no
tokens exactly if a character is exposed in a literal that lexing comes to.
-/

namespace PklAnalysis.Token

namespace Literal

def Scan.prepend (chars : List Char) (scan : Scan) : Scan :=
  { scan with taken := chars ++ scan.taken }

/-- A character that is one of many in a body: it starts no escape, no line
break that would end the literal, and no closing delimiter. -/
structure Ordinary (multiline : Bool) (c : Char) (rest : List Char) : Prop where
  escape : c = '\\' → rest = []
  line : c = '\n' → multiline = true
  delimiter : (delimiter multiline).isPrefixOf (c :: rest) = false

/-! The rules. Where a character is exposed, there is no scan. -/

mutual

inductive Body : Bool → List Char → Option Scan → Prop
  | finish {multiline : Bool} : Body multiline [] (some ⟨[], [], false⟩)
  | close {multiline : Bool} {rest : List Char} :
      Body multiline (delimiter multiline ++ rest)
        (some ⟨delimiter multiline, rest, true⟩)
  | line {rest : List Char} :
      Body false ('\n' :: rest) (some ⟨[], '\n' :: rest, false⟩)
  | escape {multiline : Bool} {c : Char} {rest : List Char}
      {found : Option Scan} (hchar : c ≠ '(')
      (hrest : Body multiline rest found) :
      Body multiline ('\\' :: c :: rest) (found.map (Scan.prepend ['\\', c]))
  | code {multiline : Bool} {rest : List Char} {code : Scan}
      {found : Option Scan}
      (hcode : Code 0 rest (some code))
      (hrest : Body multiline code.rest found) :
      Body multiline ('\\' :: '(' :: rest)
        (found.map (Scan.prepend ('\\' :: '(' :: code.taken)))
  | exposedCode {multiline : Bool} {rest : List Char}
      (hcode : Code 0 rest none) :
      Body multiline ('\\' :: '(' :: rest) none
  | char {multiline : Bool} {c : Char} {rest : List Char} {found : Option Scan}
      (hordinary : Ordinary multiline c rest) (hascii : c.toNat < 128)
      (hrest : Body multiline rest found) :
        Body multiline (c :: rest) (found.map (Scan.prepend [c]))
  | exposed {multiline : Bool} {c : Char} {rest : List Char}
      (hbeyond : 128 ≤ c.toNat) :
      Body multiline (c :: rest) none

/-- How interpolated code is read when parentheses are open in it, up to the one
that closes it. -/
inductive Code : Nat → List Char → Option Scan → Prop
  | finish {depth : Nat} : Code depth [] (some ⟨[], [], false⟩)
  | close {rest : List Char} : Code 0 (')' :: rest) (some ⟨[')'], rest, true⟩)
  | opened {depth : Nat} {rest : List Char} {found : Option Scan}
      (hrest : Code (depth + 1) rest found) :
      Code depth ('(' :: rest) (found.map (Scan.prepend ['(']))
  | closed {depth : Nat} {rest : List Char} {found : Option Scan}
      (hrest : Code depth rest found) :
      Code (depth + 1) (')' :: rest) (found.map (Scan.prepend [')']))
  | literal {depth : Nat} {multiline : Bool} {rest : List Char} {body : Scan}
      {found : Option Scan}
      (hopening : opening? (delimiter multiline ++ rest) = some multiline)
      (hbody : Body multiline rest (some body))
      (hrest : Code depth body.rest found) :
      Code depth (delimiter multiline ++ rest)
        (found.map (Scan.prepend (delimiter multiline ++ body.taken)))
  | exposed {depth : Nat} {multiline : Bool} {rest : List Char}
      (hopening : opening? (delimiter multiline ++ rest) = some multiline)
      (hbody : Body multiline rest none) :
        Code depth (delimiter multiline ++ rest) none
  | char {depth : Nat} {c : Char} {rest : List Char} {found : Option Scan}
      (hparen : c ≠ '(' ∧ c ≠ ')') (hopening : opening? (c :: rest) = none)
      (hrest : Code depth rest found) :
        Code depth (c :: rest) (found.map (Scan.prepend [c]))

end

/-! The scan as it follows the rules. -/

def scanned (frames : List Frame) (chars : List Char) : Option Scan :=
  (scanFrom 0 frames chars).toOption

def resume (outer : List Frame) (scan : Scan) : Option Scan :=
  if outer.isEmpty then some scan else
    (scanned outer scan.rest).map (Scan.prepend scan.taken)

theorem prepend_prepend (first second : List Char) (scan : Scan) :
    (scan.prepend second).prepend first = scan.prepend (first ++ second) := by
  simp [Scan.prepend]

theorem map_prepend_nil (found : Option Scan) :
    found.map (Scan.prepend []) = found := by
  cases found <;> rfl

theorem map_prepend_prepend (first second : List Char) (found : Option Scan) :
    (found.map (Scan.prepend second)).map (Scan.prepend first) =
      found.map (Scan.prepend (first ++ second)) := by
  rw [Option.map_map]
  exact congrArg (Option.map · found)
    (funext fun scan => prepend_prepend first second scan)

theorem toOption_map_push (c : Char) (result : Except Unreadable Scan) :
    (result.map (Scan.push c)).toOption =
      result.toOption.map (Scan.prepend [c]) := by
  cases result <;> rfl

theorem resume_prepend (chars : List Char) (outer : List Frame) (scan : Scan) :
    resume outer (scan.prepend chars) =
      (resume outer scan).map (Scan.prepend chars) := by
  rw [resume, resume]
  split
  · rfl
  · exact (map_prepend_prepend _ _ _).symm

theorem bind_resume_prepend (chars : List Char) (outer : List Frame)
    (found : Option Scan) :
    (found.map (Scan.prepend chars)).bind (resume outer) =
      (found.bind (resume outer)).map (Scan.prepend chars) := by
  cases found with
  | none => rfl
  | some scan => exact resume_prepend chars outer scan

theorem resume_of_ne_nil {outer : List Frame} (houter : outer ≠ [])
    (scan : Scan) :
    resume outer scan =
      (scanned outer scan.rest).map (Scan.prepend scan.taken) := by
  rw [resume, if_neg (by simpa using houter)]

theorem toOption_scanFrom_pending (taken : List Char) (frames : List Frame)
    (rest : List Char) :
    (scanFrom taken.length frames (taken ++ rest)).toOption =
      (scanned frames rest).map (Scan.prepend taken) := by
  induction taken with
  | nil => exact (map_prepend_nil _).symm
  | cons c taken ih =>
      rw [List.length_cons, List.cons_append, scanFrom, toOption_map_push, ih,
        map_prepend_prepend]
      rfl

theorem scanned_take {frame : Frame} {outer frames : List Frame} {c : Char}
    (taken : List Char) {rest : List Char}
    (hmove : move frame outer c (taken ++ rest) = .take taken.length frames) :
    scanned (frame :: outer) (c :: (taken ++ rest)) =
      (scanned frames rest).map (Scan.prepend (c :: taken)) := by
  rw [scanned, scanFrom, hmove]
  dsimp only
  rw [toOption_map_push, toOption_scanFrom_pending, map_prepend_prepend]
  rfl

theorem resume_finish (outer : List Frame) :
    resume outer ⟨[], [], false⟩ = some ⟨[], [], false⟩ := by
  cases outer <;> rfl

theorem resume_closed (outer : List Frame) (taken rest : List Char) :
    resume outer ⟨taken, rest, true⟩ =
      (scanned outer rest).map (Scan.prepend taken) := by
  cases outer with
  | nil =>
      rw [scanned, scanFrom_zero_nil]
      simp [resume, Except.toOption, Scan.prepend]
  | cons frame outer => exact resume_of_ne_nil (List.cons_ne_nil _ _) _

theorem move_delimiter (multiline : Bool) (outer : List Frame)
    (rest : List Char) :
    move (.body multiline) outer '"' ((delimiter multiline).tail ++ rest) =
      .take (delimiter multiline).tail.length outer := by
  cases multiline <;> simp [move, bodyMove, delimiter]

theorem cons_tail_delimiter (multiline : Bool) (rest : List Char) :
    '"' :: ((delimiter multiline).tail ++ rest) =
      delimiter multiline ++ rest := by
  cases multiline <;> rfl

theorem move_opening {depth : Nat} {multiline : Bool} (outer : List Frame)
    {rest : List Char}
    (hopening : opening? (delimiter multiline ++ rest) = some multiline) :
    move (.code depth) outer '"' ((delimiter multiline).tail ++ rest) =
      .take (delimiter multiline).tail.length
        (.body multiline :: .code depth :: outer) := by
  rw [move, codeMove.eq_def, if_neg (by decide), if_neg (by decide),
    cons_tail_delimiter, hopening]
  simp

theorem move_ordinary {multiline : Bool} {c : Char} {rest : List Char}
    (outer : List Frame) (hordinary : Ordinary multiline c rest)
    (hascii : c.toNat < 128) :
    move (.body multiline) outer c rest =
      .take 0 (.body multiline :: outer) := by
  obtain ⟨hescape, hline, hdelimiter⟩ := hordinary
  rw [move, bodyMove, if_neg, if_neg, hdelimiter, if_neg Bool.false_ne_true,
    if_pos hascii]
  · simpa using hline
  · simpa using hescape

theorem ne_of_exposed {c d : Char} (hbeyond : 128 ≤ c.toNat)
    (hd : d.toNat < 128) : c ≠ d := by
  rintro rfl
  omega

theorem not_delimiter_of_exposed (multiline : Bool) {c : Char}
    {rest : List Char} (hbeyond : 128 ≤ c.toNat) :
    ¬(delimiter multiline).isPrefixOf (c :: rest) = true :=
  fun hstarts => ne_of_exposed hbeyond (by decide)
    (delimiter_isPrefixOf hstarts).1

theorem move_beyond {multiline : Bool} {c : Char} (outer : List Frame)
    (rest : List Char) (hbeyond : 128 ≤ c.toNat) :
    move (.body multiline) outer c rest = .fail := by
  have hescape : c ≠ '\\' := ne_of_exposed hbeyond (by decide)
  have hline : c ≠ '\n' := ne_of_exposed hbeyond (by decide)
  rw [move, bodyMove, if_neg, if_neg,
    if_neg (not_delimiter_of_exposed multiline hbeyond), if_neg]
  · omega
  · simp [hline]
  · simp [hescape]

inductive Around : List Frame → Prop
  | outermost : Around []
  | code (depth : Nat) (inner : List Frame) : Around (.code depth :: inner)

mutual

theorem Body.scanned_eq :
    {multiline : Bool} → {chars : List Char} → {found : Option Scan} →
    Body multiline chars found → ∀ {outer : List Frame}, Around outer →
      scanned (.body multiline :: outer) chars = found.bind (resume outer)
  | _, _, _, .finish, outer, _ => (resume_finish outer).symm
  | multiline, _, _, @Body.close _ rest, outer, _ => by
      rw [← cons_tail_delimiter,
        scanned_take _ (move_delimiter multiline outer rest)]
      rw [Option.bind_some, resume_closed]
      cases multiline <;> rfl
  | _, _, _, @Body.line rest, outer, haround => by
      rcases haround with _ | ⟨depth, inner⟩
      · rfl
      · rw [Option.bind_some, resume_of_ne_nil (List.cons_ne_nil _ _)]
        have hmove :
            move (.body false) (.code depth :: inner) '\n' ([] ++ rest) =
            .take 0 (.code depth :: inner) := by simp [move, bodyMove]
        have hmove' : move (.code depth) inner '\n' ([] ++ rest) =
            .take 0 (.code depth :: inner) := by
          simp [move, codeMove, opening?, delimiter]
        have hbody := scanned_take [] hmove
        have hcode := scanned_take [] hmove'
        rw [List.nil_append] at hbody hcode
        rw [hbody, hcode]
        exact (map_prepend_nil _).symm
  | multiline, _, _, @Body.escape _ c rest found hchar hrest, outer, haround => by
      have hmove : move (.body multiline) outer '\\' ([c] ++ rest) =
          .take 1 (.body multiline :: outer) := by simp [move, bodyMove, hchar]
      rw [bind_resume_prepend, ← hrest.scanned_eq haround]
      exact scanned_take _ hmove
  | multiline, _, _, @Body.code _ rest code found hcode hrest, outer, haround => by
      have hmove : move (.body multiline) outer '\\' (['('] ++ rest) =
          .take 1 (.code 0 :: .body multiline :: outer) := by
          simp [move, bodyMove]
      have hinner := hcode.scanned_eq (.body multiline :: outer)
      rw [Option.bind_some, resume_of_ne_nil (List.cons_ne_nil _ _)] at hinner
      rw [bind_resume_prepend, ← hrest.scanned_eq haround]
      refine (scanned_take _ hmove).trans ?_
      rw [hinner, map_prepend_prepend]
      rfl
  | multiline, _, _, @Body.exposedCode _ rest hcode, outer, haround => by
      have hmove : move (.body multiline) outer '\\' (['('] ++ rest) =
          .take 1 (.code 0 :: .body multiline :: outer) := by
          simp [move, bodyMove]
      refine (scanned_take _ hmove).trans ?_
      rw [hcode.scanned_eq]
      rfl
  | multiline, _, _, @Body.char _ c rest found hordinary hascii hrest, outer,
      haround => by
      rw [bind_resume_prepend, ← hrest.scanned_eq haround]
      exact scanned_take [] (move_ordinary outer hordinary hascii)
  | _, _, _, @Body.exposed _ c rest hbeyond, outer, _ => by
      rw [scanned, scanFrom, move_beyond outer rest hbeyond]
      rfl

theorem Code.scanned_eq :
    {depth : Nat} → {chars : List Char} → {found : Option Scan} →
    Code depth chars found → ∀ outer : List Frame,
      scanned (.code depth :: outer) chars = found.bind (resume outer)
  | _, _, _, .finish, outer => (resume_finish outer).symm
  | _, _, _, @Code.close rest, outer => by
      rw [Option.bind_some, resume_closed]
      exact scanned_take [] rfl
  | _, _, _, @Code.opened depth rest found hrest, outer => by
      rw [bind_resume_prepend, ← hrest.scanned_eq outer]
      exact scanned_take [] rfl
  | _, _, _, @Code.closed depth rest found hrest, outer => by
      rw [bind_resume_prepend, ← hrest.scanned_eq outer]
      exact scanned_take [] rfl
  | depth, _, _, @Code.literal _ multiline rest body found hopening hbody hrest,
      outer => by
      have hinner := hbody.scanned_eq (Around.code depth outer)
      rw [Option.bind_some, resume_of_ne_nil (List.cons_ne_nil _ _)] at hinner
      rw [bind_resume_prepend, ← hrest.scanned_eq outer, ← cons_tail_delimiter,
        scanned_take _ (move_opening outer hopening), hinner,
        map_prepend_prepend, List.cons_append, cons_tail_delimiter]
  | depth, _, _, @Code.exposed _ multiline rest hopening hbody, outer => by
      rw [← cons_tail_delimiter, scanned_take _ (move_opening outer hopening),
        hbody.scanned_eq (.code depth outer)]
      rfl
  | depth, _, _, @Code.char _ c rest found hparen hopening hrest, outer => by
      rw [bind_resume_prepend, ← hrest.scanned_eq outer]
      refine scanned_take [] ?_
      rw [List.nil_append, move, codeMove.eq_def, if_neg hparen.1,
        if_neg hparen.2, hopening]
      rfl

end

/-- The scan of a body follows the rules. -/
theorem Body.scan_eq {multiline : Bool} {chars : List Char}
    {found : Option Scan} (hbody : Body multiline chars found) :
    (scan multiline chars).toOption = found := by
  have hscanned := hbody.scanned_eq .outermost
  exact hscanned.trans (by cases found <;> rfl)

theorem Code.scan_eq {chars : List Char} {found : Option Scan} {depth : Nat}
    (hcode : Code depth chars found) : scanned [.code depth] chars = found := by
  rw [hcode.scanned_eq]
  cases found <;> rfl

theorem Body.append {multiline : Bool} {chars : List Char} {scan : Scan}
    (hbody : Body multiline chars (some scan)) :
    chars = scan.taken ++ scan.rest :=
  scanFrom_append (toOption_eq_some.mp hbody.scan_eq)

theorem Code.append {depth : Nat} {chars : List Char} {scan : Scan}
    (hcode : Code depth chars (some scan)) : chars = scan.taken ++ scan.rest :=
  scanFrom_append (toOption_eq_some.mp hcode.scan_eq)

theorem Code.length_rest_le {depth : Nat} {chars : List Char} {scan : Scan}
    (hcode : Code depth chars (some scan)) :
    scan.rest.length ≤ chars.length := by
  rw [hcode.append, List.length_append]
  exact Nat.le_add_left _ _

theorem Body.length_rest_le {multiline : Bool} {chars : List Char} {scan : Scan}
    (hbody : Body multiline chars (some scan)) :
    scan.rest.length ≤ chars.length := by
  rw [hbody.append, List.length_append]
  exact Nat.le_add_left _ _

def ReadUpTo (limit : Nat) : Prop :=
  ∀ chars : List Char, chars.length ≤ limit →
    (∀ multiline, ∃ found, Body multiline chars found) ∧ ∀ depth, ∃ found,
    Code depth chars found

theorem exists_rest_of_isPrefixOf {multiline : Bool} {chars : List Char}
    (hstarts : (delimiter multiline).isPrefixOf chars = true) :
    ∃ rest,
      delimiter multiline ++ rest = chars ∧ rest.length < chars.length := by
  obtain ⟨rest, hrest⟩ := List.isPrefixOf_iff_prefix.mp hstarts
  refine ⟨rest, hrest, ?_⟩
  have hlength := congrArg List.length hrest
  rw [List.length_append] at hlength
  have hpositive := delimiter_length_pos multiline
  omega

section

variable {limit : Nat} (hread : ReadUpTo limit) {c : Char} {rest : List Char}
  (hlimit : rest.length ≤ limit)
include hread hlimit

theorem exists_body_escape (multiline : Bool) :
    ∃ found, Body multiline ('\\' :: c :: rest) found := by
  by_cases hchar : c = '('
  case neg =>
      obtain ⟨found, hfound⟩ := (hread rest hlimit).1 multiline
      exact ⟨_, .escape hchar hfound⟩
  case pos =>
      subst hchar
      obtain ⟨_ | code, hcode⟩ := (hread rest hlimit).2 0
      · exact ⟨_, .exposedCode hcode⟩
      · obtain ⟨found, hfound⟩ :=
          (hread code.rest (Nat.le_trans hcode.length_rest_le hlimit)).1
            multiline
        exact ⟨_, .code hcode hfound⟩

theorem exists_body_cons (multiline : Bool) :
    ∃ found, Body multiline (c :: rest) found := by
  by_cases hascii : c.toNat < 128
  case neg => exact ⟨_, .exposed (Nat.le_of_not_lt hascii)⟩
  by_cases hescape : c = '\\' ∧ rest ≠ []
  case pos =>
      obtain ⟨rfl, hrest⟩ := hescape
      obtain ⟨next, further, rfl⟩ := List.exists_cons_of_ne_nil hrest
      exact exists_body_escape hread (Nat.le_of_succ_le hlimit) multiline
  by_cases hline : c = '\n' ∧ multiline = false
  case pos =>
      obtain ⟨rfl, rfl⟩ := hline
      exact ⟨_, .line⟩
  cases hdelimiter : (delimiter multiline).isPrefixOf (c :: rest) with
  | true =>
      obtain ⟨further, hfurther, -⟩ := exists_rest_of_isPrefixOf hdelimiter
      rw [← hfurther]
      exact ⟨_, .close⟩
  | false =>
      obtain ⟨found, hfound⟩ := (hread rest hlimit).1 multiline
      refine ⟨_,
        .char ⟨fun hsame => ?_, fun hsame => ?_, hdelimiter⟩ hascii hfound⟩
      · exact Classical.not_not.mp fun hrest => hescape ⟨hsame, hrest⟩
      · exact Bool.not_eq_false _ |>.mp fun hsingle => hline ⟨hsame, hsingle⟩

theorem exists_code_cons (depth : Nat) :
    ∃ found, Code depth (c :: rest) found := by
  by_cases hopened : c = '('
  case pos =>
      subst hopened
      obtain ⟨found, hfound⟩ := (hread rest hlimit).2 (depth + 1)
      exact ⟨_, .opened hfound⟩
  by_cases hclosed : c = ')'
  case pos =>
      subst hclosed
      cases depth with
      | zero => exact ⟨_, .close⟩
      | succ depth =>
          obtain ⟨found, hfound⟩ := (hread rest hlimit).2 depth
          exact ⟨_, .closed hfound⟩
  cases hopening : opening? (c :: rest) with
  | none =>
      obtain ⟨found, hfound⟩ := (hread rest hlimit).2 depth
      exact ⟨_, .char ⟨hopened, hclosed⟩ hopening hfound⟩
  | some multiline =>
      obtain ⟨inner, hinner, hshorter⟩ :=
        exists_rest_of_isPrefixOf (opening?_eq_some hopening)
      rw [← hinner] at hopening ⊢
      rw [List.length_cons] at hshorter
      obtain ⟨_ | body, hbody⟩ := (hread inner (by omega)).1 multiline
      · exact ⟨_, .exposed hopening hbody⟩
      · have hrest := hbody.length_rest_le
        obtain ⟨found, hfound⟩ := (hread body.rest (by omega)).2 depth
        exact ⟨_, .literal hopening hbody hfound⟩

end

theorem readUpTo (limit : Nat) : ReadUpTo limit := by
  induction limit with
  | zero =>
      intro chars hlimit
      obtain rfl := List.length_eq_zero_iff.mp (Nat.le_zero.mp hlimit)
      exact ⟨fun _ => ⟨_, .finish⟩, fun _ => ⟨_, .finish⟩⟩
  | succ limit ih =>
      intro chars hlimit
      cases chars with
      | nil => exact ⟨fun _ => ⟨_, .finish⟩, fun _ => ⟨_, .finish⟩⟩
      | cons c rest =>
          have hrest := Nat.le_of_succ_le_succ hlimit
          exact ⟨exists_body_cons ih hrest, exists_code_cons ih hrest⟩

theorem body_iff {multiline : Bool} {chars : List Char} {found : Option Scan} :
    Body multiline chars found ↔ (scan multiline chars).toOption = found := by
  refine ⟨Body.scan_eq, fun hscan => ?_⟩
  obtain ⟨found', hfound⟩ := (readUpTo _ chars (Nat.le_refl _)).1 multiline
  rw [← hscan, hfound.scan_eq]
  exact hfound

theorem code_iff {depth : Nat} {chars : List Char} {found : Option Scan} :
    Code depth chars found ↔ scanned [.code depth] chars = found := by
  refine ⟨Code.scan_eq, fun hscan => ?_⟩
  obtain ⟨found', hfound⟩ := (readUpTo _ chars (Nat.le_refl _)).2 depth
  rw [← hscan, hfound.scan_eq]
  exact hfound

end Literal

/-- A character beyond ASCII is exposed in a literal that lexing comes to: in
one that the text starts with, in the code of that literal, after it, or after a
token that is no literal. -/
inductive Exposed : List Char → Prop
  | body {chars : List Char} {multiline : Bool}
  (hopening : Literal.opening? chars = some multiline)
      (hbody : Literal.Body multiline
        (chars.drop (Literal.delimiter multiline).length) none) :
      Exposed chars
  | code {chars code : List Char} {multiline : Bool} {scan : Literal.Scan}
      {pieces : List Literal.Piece}
      (hopening : Literal.opening? chars = some multiline)
      (hbody : Literal.Body multiline
        (chars.drop (Literal.delimiter multiline).length) (some scan))
      (hpieces : Literal.split multiline scan.taken = .ok pieces)
      (hcode : ⟨.code, code⟩ ∈ pieces) (hexposed : Exposed code) : Exposed chars
  | rest {chars : List Char} {multiline : Bool} {scan : Literal.Scan}
      (hopening : Literal.opening? chars = some multiline)
      (hbody : Literal.Body multiline
        (chars.drop (Literal.delimiter multiline).length) (some scan))
      (hexposed : Exposed scan.rest) : Exposed chars
  | token {chars : List Char} (hopening : Literal.opening? chars = none)
      (hexposed : Exposed (chars.drop (first chars).2)) : Exposed chars

theorem kind?_eq_none {role : Literal.Role} :
    role.kind? = none ↔ role = .code := by
  cases role <;> simp [Literal.Role.kind?]

theorem bind_pure_eq_none_iff {result : Except ε α} {value : α → β} :
    (result >>= fun found => pure (value found)).toOption = none ↔
      result.toOption = none := by
  cases result with
  | error reason => exact iff_of_true rfl rfl
  | ok found => exact iff_of_false nofun nofun

theorem bind_both_eq_none_iff {left : Except ε α} {right : Except ε β}
    {value : α → β → γ} :
    (left >>= fun first => right >>= fun second =>
      pure (value first second)).toOption = none ↔
      left.toOption = none ∨ right.toOption = none := by
  cases left with
  | error reason => exact iff_of_true rfl (.inl rfl)
  | ok first => exact bind_pure_eq_none_iff.trans (or_iff_right nofun).symm

section

variable {lexCode : Nat → List Char → Except Literal.Unreadable (List Token)}

theorem ofPieces_cons_eq_none_iff {offset : Nat} {piece : Literal.Piece}
    {rest : List Literal.Piece} :
    (ofPieces lexCode offset (piece :: rest)).toOption = none ↔
      piece.role = .code ∧ (lexCode offset piece.chars).toOption = none ∨
        (ofPieces lexCode (offset + Text.byteSize piece.chars) rest).toOption =
          none := by
  rw [ofPieces]
  cases hkind : piece.role.kind? with
  | some kind =>
      have hrole : piece.role ≠ .code := fun hrole => by
        rw [hrole] at hkind
        cases hkind
      refine Iff.trans bind_pure_eq_none_iff ⟨.inr, fun hnone => ?_⟩
      exact hnone.resolve_left fun hcode => hrole hcode.1
  | none =>
      rw [and_iff_right (kind?_eq_none.mp hkind)]
      exact bind_both_eq_none_iff

theorem ofPieces_eq_none_iff {holds : List Char → Prop}
    {pieces : List Literal.Piece}
    (hlex : ∀ piece ∈ pieces, ∀ offset,
      (lexCode offset piece.chars).toOption = none ↔ holds piece.chars)
    (offset : Nat) :
    (ofPieces lexCode offset pieces).toOption = none ↔
      ∃ code, ⟨.code, code⟩ ∈ pieces ∧ holds code := by
  induction pieces generalizing offset with
  | nil => exact iff_of_false nofun (by simp)
  | cons piece rest ih =>
      obtain ⟨hpiece, hrest⟩ := List.forall_mem_cons.mp hlex
      rw [ofPieces_cons_eq_none_iff, hpiece, ih hrest]
      constructor
      · rintro (⟨hrole, hholds⟩ | ⟨code, hcode, hholds⟩)
        · exact ⟨piece.chars, by rw [← hrole]; exact List.mem_cons_self, hholds⟩
        · exact ⟨code, List.mem_cons_of_mem _ hcode, hholds⟩
      · rintro ⟨code, hcode, hholds⟩
        rcases List.mem_cons.mp hcode with rfl | hcode
        · exact .inl ⟨rfl, hholds⟩
        · exact .inr ⟨code, hcode, hholds⟩

end

theorem exposed_token_iff {chars : List Char}
    (hopening : Literal.opening? chars = none) :
    Exposed chars ↔ Exposed (chars.drop (first chars).2) := by
  refine ⟨fun hexposed => ?_, .token hopening⟩
  cases hexposed with
  | token _ hexposed => exact hexposed
  | body hliteral _ | code hliteral _ _ _ _ | rest hliteral _ _ =>
      rw [hopening] at hliteral
      cases hliteral

section

variable {chars : List Char} {multiline : Bool}
  (hopening : Literal.opening? chars = some multiline)
include hopening

theorem exposed_literal_iff {scan : Literal.Scan} {pieces : List Literal.Piece}
    (hscan :
    Literal.scan multiline (chars.drop (Literal.delimiter multiline).length) =
      .ok scan)
    (hpieces : Literal.split multiline scan.taken = .ok pieces) :
    Exposed chars ↔
      (∃ code, ⟨.code, code⟩ ∈ pieces ∧ Exposed code) ∨ Exposed scan.rest := by
  have hbody := Literal.body_iff.mpr (congrArg Except.toOption hscan)
  refine ⟨fun hexposed => ?_, fun hexposed => ?_⟩
  · cases hexposed with
    | token hnone _ =>
        rw [hopening] at hnone
        cases hnone
    | body hopening' hbody' =>
        cases hopening.symm.trans hopening'
        cases hbody.scan_eq.symm.trans hbody'.scan_eq
    | code hopening' hbody' hpieces' hcode hexposed =>
        cases hopening.symm.trans hopening'
        cases hbody.scan_eq.symm.trans hbody'.scan_eq
        cases hpieces.symm.trans hpieces'
        exact .inl ⟨_, hcode, hexposed⟩
    | rest hopening' hbody' hexposed =>
        cases hopening.symm.trans hopening'
        cases hbody.scan_eq.symm.trans hbody'.scan_eq
        exact .inr hexposed
  · rcases hexposed with ⟨code, hcode, hexposed⟩ | hexposed
    · exact .code hopening hbody hpieces hcode hexposed
    · exact .rest hopening hbody hexposed

end

def FailsUpTo (limit : Nat)
    (lex : Nat → List Char → Except Literal.Unreadable (List Token)) : Prop :=
  ∀ offset chars,
    chars.length ≤ limit → ((lex offset chars).toOption = none ↔ Exposed chars)

theorem lexFrom_literal_eq_none_iff {fuel offset : Nat} {c : Char}
    {rest : List Char} {multiline : Bool} (hlex : FailsUpTo fuel (lexFrom fuel))
    (hlimit : rest.length ≤ fuel)
    (hopening : Literal.opening? (c :: rest) = some multiline) :
    (lexFrom (fuel + 1) offset (c :: rest)).toOption = none ↔
      Exposed (c :: rest) := by
  rw [lexFrom, hopening]
  dsimp only
  cases hscan :
    Literal.scan multiline
      ((c :: rest).drop (Literal.delimiter multiline).length) with
  | error reason =>
      refine iff_of_true rfl (.body hopening (Literal.body_iff.mpr ?_))
      rw [hscan]
      rfl
  | ok scan =>
      obtain ⟨pieces, hpieces, hagrees⟩ := Literal.split_pieces hscan
      have hlength := congrArg List.length (Literal.scanFrom_append hscan)
      rw [List.length_drop, List.length_append, List.length_cons] at hlength
      have hquotes := Literal.delimiter_length_pos multiline
      have hcode : ∀ piece ∈ pieces, piece.chars.length ≤ fuel :=
        fun piece hpiece => by
        have hpart := hagrees.length_chars_le hpiece
        omega
      rw [exposed_literal_iff hopening hscan hpieces,
        ← ofPieces_eq_none_iff
          (fun piece hpiece offset =>
            hlex offset piece.chars (hcode piece hpiece))
              (offset + (Literal.delimiter multiline).length),
        ← hlex
          (offset + (Literal.delimiter multiline).length +
            Text.byteSize scan.taken) scan.rest (by omega)]
      simp only [bind, Except.bind, hpieces]
      exact bind_both_eq_none_iff

theorem not_exposed_nil : ¬ Exposed [] := by
  intro hexposed
  generalize hempty : [] = chars at hexposed
  induction hexposed with
  | body hopening _ | code hopening _ _ _ _ _ | rest hopening _ _ _ =>
      subst hempty
      cases hopening
  | token _ _ ih =>
      subst hempty
      exact ih List.drop_nil.symm

theorem failsUpTo_lexFrom (fuel : Nat) : FailsUpTo fuel (lexFrom fuel) := by
  induction fuel with
  | zero =>
      intro offset chars hlimit
      obtain rfl := List.length_eq_zero_iff.mp (Nat.le_zero.mp hlimit)
      exact iff_of_false nofun not_exposed_nil
  | succ fuel ih =>
      intro offset chars hlimit
      cases chars with
      | nil => exact iff_of_false nofun not_exposed_nil
      | cons c rest =>
          cases hopening : Literal.opening? (c :: rest) with
          | some multiline =>
              exact lexFrom_literal_eq_none_iff ih
                (Nat.le_of_succ_le_succ hlimit) hopening
          | none =>
              have hpositive := first_pos (c :: rest)
              have hshorter : ((c :: rest).drop (first (c :: rest)).2).length ≤
                  fuel := by
                rw [List.length_drop]
                omega
              rw [exposed_token_iff hopening, ← ih _ _ hshorter, lexFrom,
                hopening]
              exact bind_pure_eq_none_iff

/-- A text has no tokens exactly if a character beyond ASCII is exposed in
it. -/
theorem tokenize_eq_none_iff {text : String} :
    (tokenize text).toOption = none ↔ Exposed text.toList :=
  failsUpTo_lexFrom _ 0 text.toList (Nat.le_refl _)

namespace Literal

mutual

theorem Body.exists_beyond :
    {multiline : Bool} → {chars : List Char} → {found : Option Scan} →
    Body multiline chars found → found = none → ∃ c ∈ chars, 128 ≤ c.toNat
  | _, _, _, .escape _ hrest, hnone => by
      obtain ⟨c, hc, hbeyond⟩ :=
        hrest.exists_beyond (Option.map_eq_none_iff.mp hnone)
      exact ⟨c, List.mem_cons_of_mem _ (List.mem_cons_of_mem _ hc), hbeyond⟩
  | _, _, _, .code hcode hrest, hnone => by
      obtain ⟨c, hc, hbeyond⟩ :=
        hrest.exists_beyond (Option.map_eq_none_iff.mp hnone)
      refine ⟨c, List.mem_cons_of_mem _ (List.mem_cons_of_mem _ ?_), hbeyond⟩
      rw [hcode.append]
      exact List.mem_append_right _ hc
  | _, _, _, .exposedCode hcode, _ => by
      obtain ⟨c, hc, hbeyond⟩ := hcode.exists_beyond rfl
      exact ⟨c, List.mem_cons_of_mem _ (List.mem_cons_of_mem _ hc), hbeyond⟩
  | _, _, _, .char _ _ hrest, hnone => by
      obtain ⟨c, hc, hbeyond⟩ :=
        hrest.exists_beyond (Option.map_eq_none_iff.mp hnone)
      exact ⟨c, List.mem_cons_of_mem _ hc, hbeyond⟩
  | _, _, _, .exposed hbeyond, _ => ⟨_, List.mem_cons_self, hbeyond⟩

theorem Code.exists_beyond :
    {depth : Nat} → {chars : List Char} → {found : Option Scan} →
    Code depth chars found → found = none → ∃ c ∈ chars, 128 ≤ c.toNat
  | _, _, _, .opened hrest, hnone | _, _, _, .closed hrest, hnone | _, _, _,
    .char _ _ hrest, hnone => by
      obtain ⟨c, hc, hbeyond⟩ :=
        hrest.exists_beyond (Option.map_eq_none_iff.mp hnone)
      exact ⟨c, List.mem_cons_of_mem _ hc, hbeyond⟩
  | _, _, _, .literal _ hbody hrest, hnone => by
      obtain ⟨c, hc, hbeyond⟩ :=
        hrest.exists_beyond (Option.map_eq_none_iff.mp hnone)
      refine ⟨c, List.mem_append_right _ ?_, hbeyond⟩
      rw [hbody.append]
      exact List.mem_append_right _ hc
  | _, _, _, .exposed _ hbody, _ => by
      obtain ⟨c, hc, hbeyond⟩ := hbody.exists_beyond rfl
      exact ⟨c, List.mem_append_right _ hc, hbeyond⟩

end

end Literal

theorem Exposed.exists_beyond {chars : List Char} (hexposed : Exposed chars) :
    ∃ c ∈ chars, 128 ≤ c.toNat := by
  induction hexposed with
  | body _ hbody =>
      obtain ⟨c, hc, hbeyond⟩ := hbody.exists_beyond rfl
      exact ⟨c, List.mem_of_mem_drop hc, hbeyond⟩
  | @code chars code multiline scan pieces _ hbody hpieces hcode _ ih =>
      obtain ⟨c, hc, hbeyond⟩ := ih
      obtain ⟨pieces', hpieces', hagrees⟩ :=
        Literal.split_pieces (toOption_eq_some.mp hbody.scan_eq)
      cases hpieces.symm.trans hpieces'
      have htaken : c ∈ scan.taken := by
        rw [← hagrees.chars]
        exact List.mem_flatMap.mpr ⟨_, hcode, hc⟩
      have hrest : c ∈ chars.drop (Literal.delimiter multiline).length := by
        rw [hbody.append]
        exact List.mem_append_left _ htaken
      exact ⟨c, List.mem_of_mem_drop hrest, hbeyond⟩
  | @rest chars multiline scan _ hbody _ ih =>
      obtain ⟨c, hc, hbeyond⟩ := ih
      have hrest : c ∈ chars.drop (Literal.delimiter multiline).length := by
        rw [hbody.append]
        exact List.mem_append_right _ hc
      exact ⟨c, List.mem_of_mem_drop hrest, hbeyond⟩
  | token _ _ ih =>
      obtain ⟨c, hc, hbeyond⟩ := ih
      exact ⟨c, List.mem_of_mem_drop hc, hbeyond⟩

end PklAnalysis.Token
