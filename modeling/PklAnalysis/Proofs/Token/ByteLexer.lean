import PklAnalysis.Proofs.Token.Bytes

/-!
Lexing byte by byte. A literal is cut into its tokens at offsets in bytes, as it
is scanned. All cuts lie between characters if the scan of the literal has not
failed, so lexing this way makes the same tokens, and fails on the same texts.
-/

namespace PklAnalysis.Token.Bytewise

open Text Literal

def chunk? (offset : Nat) (body : List Char) (start stop : Nat) :
    Option (List Token) :=
  if start < stop then do
    let text ← slice? body start stop
    return [ofChars .stringChars (offset + start) text]
  else
    some []

def codeStop? (closed : Bool) (stop : Nat) : Option Nat :=
  if closed then minus? stop 1 else some stop

def closer? (offset : Nat) (body : List Char) (closed : Bool) (stop : Nat) :
    Option (List Token) :=
  if closed then do
    let text ← slice? body stop (stop + 1)
    return [ofChars .rightParen (offset + stop) text]
  else
    some []

section

variable (lexCode : Nat → List Char → Option (List Token)) (offset : Nat)
  (multiline : Bool) (body : List Char)

/-- The tokens of a body that starts at `offset`, from byte `i` on; the text
from `start` to there is gathered for the next token. -/
def splitFrom (start i : Nat) : Option (List Token) :=
  if _h : i < byteSize body then
    if byteAt? body i = some (byteOf '\\') ∧ byteAt? body (i + 1) = some (byteOf
        '(') then do
      let front ← chunk? offset body start i
      let opener ← slice? body i (i + 2)
      let code ← from? body (i + 2)
      let (size, closed) ← scanCode 0 code.1 0
      let stop ← codeStop? closed (i + 2 + size)
      let inner ← slice? body (i + 2) stop
      let tokens ← lexCode (offset + (i + 2)) inner
      let closer ← closer? offset body closed stop
      let further ← splitFrom (i + 2 + size) (i + 2 + size)
      return front ++ ofChars .interpolationStart (offset + i) opener ::
        tokens ++ closer ++ further
    else if byteAt? body i = some (byteOf '\\') then do
      let size ← escapeSize? body i
      splitFrom start (i + size.1)
    else do
      let rest ← from? body i
      if (delimiter multiline).isPrefixOf rest.1 then do
        let front ← chunk? offset body start i
        let quotes ← slice? body i (i + (delimiter multiline).length)
        return front ++ [ofChars .stringEnd (offset + i) quotes]
      else
        splitFrom start (i + 1)
  else
    chunk? offset body start (byteSize body)
termination_by byteSize body - i

def splitLiteral (text : List Char) : Option (List Token) := do
  let start := min (delimiter multiline).length (byteSize text)
  let quotes ← slice? text 0 start
  let body ← from? text start
  let tokens ← splitFrom lexCode (offset + start) multiline body.1 0 0
  return ofChars .stringStart offset quotes :: tokens

end

def lexFrom : Nat → Nat → List Char → Option (List Token)
  | 0, _, _ => some []
  | _ + 1, _, [] => some []
  | fuel + 1, offset, c :: rest =>
      let chars := c :: rest
      match opening? chars with
      | some multiline => do
          let remainder ← from? chars (delimiter multiline).length
          let size ← scanBody multiline remainder.1 0
          let stop := (delimiter multiline).length + size
          let text ← slice? chars 0 stop
          let tokens ← splitLiteral (lexFrom fuel) offset multiline text
          let after ← from? chars stop
          let further ← lexFrom fuel (offset + stop) after.1
          return tokens ++ further
      | none => do
          let (kind, count) := first chars
          let text := chars.take count
          let further ← lexFrom fuel (offset + byteSize text) (chars.drop count)
          return ofChars kind offset text :: further

def tokenize (text : String) : Option (List Token) :=
  lexFrom text.toList.length 0 text.toList

theorem toOption_bind (result : Except ε α) (next : α → Except ε β) :
    (result >>= next).toOption = result.toOption.bind fun found =>
      (next found).toOption := by
  cases result <;> rfl

theorem toOption_ok (value : α) :
    (Except.ok value : Except ε α).toOption = some value :=
  rfl

section

variable {lexCode : Nat → List Char → Except Unreadable (List Token)}

theorem toOption_ofPieces_append (offset : Nat) (left right : List Piece) :
    (ofPieces lexCode offset (left ++ right)).toOption =
      (ofPieces lexCode offset left).toOption.bind fun front =>
        (ofPieces lexCode (offset + byteSize (left.flatMap Piece.chars))
          right).toOption.map (front ++ ·) := by
  rw [ofPieces_append, toOption_bind]
  refine Option.bind_congr fun front _ => ?_
  cases ofPieces lexCode (offset +
    byteSize (left.flatMap Piece.chars)) right <;> rfl

theorem chunk?_eq_ofPieces
    (lexCode : Nat → List Char → Except Unreadable (List Token)) (offset : Nat)
    (before chunk after : List Char) :
    chunk? offset (before ++ (chunk.reverse ++ after)) (byteSize before)
        (byteSize before + byteSize chunk.reverse) =
      (ofPieces lexCode (offset + byteSize before)
        (gathered chunk)).toOption := by
  rw [gathered]
  split
  case isTrue hempty =>
      have hstop : byteSize before + byteSize chunk.reverse =
          byteSize before := by
        rw [List.isEmpty_iff.mp hempty]
        rfl
      rw [chunk?, if_neg (by omega)]
      rfl
  case isFalse hchunk =>
      obtain ⟨c, rest, hreverse⟩ : ∃ c rest, chunk.reverse = c :: rest :=
        List.exists_cons_of_ne_nil (by simpa using hchunk)
      have hpositive : 0 < byteSize chunk.reverse := by
        rw [hreverse, byteSize_cons]
        exact Nat.add_pos_left (Char.utf8Size_pos c) _
      rw [chunk?, if_pos (Nat.lt_add_of_pos_right hpositive), slice?_append]
      rfl

end

/-! One step of cutting a body. -/

section

variable (lex : Nat → List Char → Option (List Token)) (offset : Nat)
  (multiline : Bool) (start : Nat) (before : List Char)

theorem splitFrom_nil :
    splitFrom lex offset multiline before start (byteSize before) =
      chunk? offset before start (byteSize before) := by
  rw [splitFrom, dif_neg (Nat.lt_irrefl _)]

theorem splitFrom_cons {c : Char} {rest : List Char}
    (hopener : ¬ (c = '\\' ∧ rest.head? = some '(')) :
    splitFrom lex offset multiline (before ++ c :: rest) start
      (byteSize before) = if c = '\\' then
        splitFrom lex offset multiline (before ++ c :: rest) start
          (byteSize before + (1 + (rest.head?.map Char.utf8Size).getD 0))
      else if (delimiter multiline).isPrefixOf (c :: rest) then do
        let front ← chunk? offset (before ++ c :: rest) start (byteSize before)
        let quotes ← slice? (before ++ c :: rest) (byteSize before)
          (byteSize before + (delimiter multiline).length)
        return front ++ [ofChars .stringEnd (offset + byteSize before) quotes]
      else
        splitFrom lex offset multiline (before ++ c :: rest) start
          (byteSize before + 1) := by
  rw [splitFrom, dif_pos (byteSize_lt before rest c),
    if_neg (hopener ∘ opener_iff.mp)]
  refine ite_congr (propext (byteAt?_head_iff (by decide))) (fun hescape => ?_)
    fun _ => ?_
  · subst hescape
    obtain ⟨h, hrest⟩ := exists_from?_escape before rest
    rw [escapeSize?, hrest]
    rfl
  · obtain ⟨h, hrest⟩ := exists_from? before (c :: rest) rfl rfl
    rw [hrest]
    rfl

theorem splitFrom_exposed {c : Char} (hbeyond : 128 ≤ c.toNat)
    (rest : List Char) :
    splitFrom lex offset multiline (before ++ c :: rest) start
      (byteSize before) = none := by
  have hescape : c ≠ '\\' := ne_of_exposed hbeyond (by decide)
  rw [splitFrom_cons lex offset multiline start before fun h => hescape h.1,
    if_neg hescape, if_neg (not_delimiter_of_exposed multiline hbeyond),
    splitFrom, dif_pos (second_lt_byteSize hbeyond),
    if_neg (fun h => byteAt?_second hbeyond (by decide) h.1),
    if_neg (byteAt?_second hbeyond (by decide)),
    from?_inside before rest hbeyond]
  rfl

end

section

variable (lexCode : Nat → List Char → Except Unreadable (List Token))
  (offset : Nat) (multiline : Bool) (start : Nat) (before rest : List Char)

theorem splitFrom_unreadable {reason : Unreadable}
    (hscan : Literal.scanCode rest = .error reason) :
    splitFrom (fun offset code => (lexCode offset code).toOption) offset
      multiline
      (before ++ '\\' :: '(' :: rest) start (byteSize before) = none := by
  obtain ⟨h, hcode⟩ := exists_from?_opener before rest
  have hsize := scanCode_eq_scan rest
  rw [hscan] at hsize
  have hopener := slice?_append before ['\\', '('] rest
  rw [splitFrom, dif_pos (byteSize_lt before _ _),
    if_pos (opener_iff.mpr ⟨rfl, rfl⟩), hcode]
  cases chunk? offset (before ++ '\\' :: '(' :: rest) start
    (byteSize before) with
  | none => rfl
  | some front =>
      cases slice? (before ++ '\\' :: '(' :: rest) (byteSize before)
        (byteSize before + 2) with
      | none => rfl
      | some opener =>
          simp only [Option.bind_eq_bind, Option.bind_some, hsize]
          rfl

def codeOf (scan : Scan) : List Char :=
  if scan.closed then scan.taken.dropLast else scan.taken

theorem ofPieces_codePieces (scan : Scan) :
    (ofPieces lexCode offset
      (⟨.opener, ['\\', '(']⟩ :: codePieces scan)).toOption =
      (lexCode (offset + 2) (codeOf scan)).toOption.map fun tokens =>
        ofChars .interpolationStart offset ['\\', '('] :: tokens ++
          if scan.closed then
            [ofChars .rightParen (offset + 2 + byteSize (codeOf scan)) [')']]
              else [] := by
  rw [codePieces, codeOf]
  cases scan.closed with
  | false =>
      change (ofPieces lexCode offset [⟨.opener, ['\\', '(']⟩,
        ⟨.code, scan.taken⟩]).toOption =
        (lexCode (offset + 2) scan.taken).toOption.map _
      rw [ofPieces, ofPieces]
      change
        (((lexCode (offset + 2) scan.taken >>= fun tokens =>
          pure (tokens ++ [])) >>=
        fun further => pure (_ ++ further)) : Except Unreadable _).toOption = _
      cases lexCode (offset + 2) scan.taken with
      | error reason => rfl
      | ok tokens =>
          simp [Except.toOption, pure, Except.pure, bind, Except.bind]
  | true =>
      change (ofPieces lexCode offset [⟨.opener, ['\\', '(']⟩,
        ⟨.code, scan.taken.dropLast⟩,
        ⟨.closer, [')']⟩]).toOption =
          (lexCode (offset + 2) scan.taken.dropLast).toOption.map _
      rw [ofPieces, ofPieces]
      change (((lexCode (offset + 2) scan.taken.dropLast >>= fun tokens =>
        pure (tokens ++
          [ofChars .rightParen (offset + 2 + byteSize scan.taken.dropLast)
            [')']])) >>=
        fun further => pure (_ ++ further)) : Except Unreadable _).toOption = _
      cases lexCode (offset + 2) scan.taken.dropLast with
      | error reason => rfl
      | ok tokens => rfl

theorem codeOf_append {scan : Scan} {chars : List Char}
    (hscan : Literal.scanCode chars = .ok scan) :
    codeOf scan ++ (if scan.closed then [')'] else []) = scan.taken := by
  rw [codeOf]
  split
  case isTrue hclosed => exact scanCode_closed hscan hclosed
  case isFalse => exact List.append_nil _

theorem toOption_ofPieces_around {scan : Scan} {chars : List Char}
    (hscan : Literal.scanCode chars = .ok scan) (chunk : List Char)
    (pieces : List Piece) :
    (ofPieces lexCode offset
        (gathered chunk ++ ⟨.opener, ['\\', '(']⟩ :: codePieces scan ++
          pieces)).toOption = do
      let front ← (ofPieces lexCode offset (gathered chunk)).toOption
      let tokens ← (ofPieces lexCode (offset + byteSize chunk.reverse)
        (⟨.opener, ['\\', '(']⟩ :: codePieces scan)).toOption
      let further ←
        (ofPieces lexCode
          (offset + byteSize chunk.reverse + 2 + byteSize scan.taken)
        pieces).toOption
      return front ++ tokens ++ further := by
  have hchars :
      (gathered chunk ++ ⟨.opener, ['\\', '(']⟩ ::
        codePieces scan).flatMap Piece.chars =
      chunk.reverse ++ '\\' :: '(' :: scan.taken := by
    rw [List.flatMap_append, List.flatMap_cons, chars_gathered,
      chars_codePieces hscan]
    rfl
  have hstop : offset + byteSize (chunk.reverse ++ '\\' :: '(' :: scan.taken) =
      offset + byteSize chunk.reverse + 2 + byteSize scan.taken := by
    rw [byteSize_append, byteSize_cons, byteSize_cons,
      utf8Size_of_ascii (by decide), utf8Size_of_ascii (by decide)]
    omega
  rw [toOption_ofPieces_append, toOption_ofPieces_append, hchars,
    chars_gathered, hstop, Option.bind_assoc]
  refine Option.bind_congr fun front _ => ?_
  rw [Option.bind_map]
  refine Option.bind_congr fun tokens _ => ?_
  rw [Function.comp_apply, Option.map_eq_bind]
  rfl

theorem splitFrom_code {scan : Scan}
    (hscan : Literal.scanCode rest = .ok scan) :
    splitFrom (fun offset code => (lexCode offset code).toOption) offset
      multiline
        (before ++ '\\' :: '(' :: rest) start (byteSize before) = do
      let front ← chunk? offset (before ++ '\\' :: '(' :: rest) start
        (byteSize before)
      let tokens ← (ofPieces lexCode (offset + byteSize before)
        (⟨.opener, ['\\', '(']⟩ :: codePieces scan)).toOption
      let further ← splitFrom
        (fun offset code => (lexCode offset code).toOption) offset multiline
        (before ++ '\\' :: '(' :: rest)
          (byteSize before + 2 + byteSize scan.taken)
        (byteSize before + 2 + byteSize scan.taken)
      return front ++ tokens ++ further := by
  have hsize : scanCode 0 rest 0 = some (byteSize scan.taken, scan.closed) := by
    rw [scanCode_eq_scan, hscan]
    rfl
  have htaken := codeOf_append hscan
  have hchars : before ++ '\\' :: '(' :: rest =
      before ++ ['\\', '('] ++
        (codeOf scan ++
          ((if scan.closed then [')'] else []) ++ scan.rest)) := by
    rw [← List.append_assoc (codeOf scan), htaken, ← scanFrom_append hscan,
      List.append_assoc]
    rfl
  have hfront : byteSize before + 2 = byteSize (before ++ ['\\', '(']) := by
    rw [byteSize_append]
    rfl
  obtain ⟨h, hcode⟩ := exists_from?_opener before rest
  have hopener :
      slice? (before ++ '\\' :: '(' :: rest) (byteSize
        before) (byteSize before + 2) =
      some ['\\', '('] := slice?_append before ['\\', '('] rest
  have hinner := slice?_eq _ _ _ hchars hfront rfl
  have hstop :
      codeStop? scan.closed (byteSize before + 2 + byteSize scan.taken) =
      some (byteSize before + 2 + byteSize (codeOf scan)) := by
    rw [← htaken, byteSize_append]
    cases scan.closed with
    | false => rfl
    | true =>
        have hparen : byteSize [')'] = 1 := rfl
        rw [if_pos rfl, hparen, codeStop?, if_pos rfl, minus?,
          if_pos (by omega)]
        rfl
  have hcloser : closer? offset (before ++ '\\' :: '(' :: rest) scan.closed
      (byteSize before + 2 + byteSize (codeOf scan)) = some (if scan.closed then
        [ofChars .rightParen
          (offset + byteSize before + 2 + byteSize (codeOf scan)) [')']] else
            []) := by
    cases hclosed : scan.closed with
    | false => rfl
    | true =>
        rw [hclosed, if_pos rfl, ← List.append_assoc] at hchars
        have hparen :
            slice? (before ++ '\\' :: '(' :: rest)
              (byteSize before + 2 + byteSize (codeOf scan))
            (byteSize before + 2 + byteSize (codeOf scan) + 1) = some [')'] :=
          slice?_eq _ _ _ hchars (by rw [hfront, ← byteSize_append]) rfl
        rw [closer?, if_pos rfl, if_pos rfl, hparen, Nat.add_assoc,
          Nat.add_assoc, Nat.add_assoc]
        rfl
  rw [splitFrom, dif_pos (byteSize_lt before _ _),
    if_pos (opener_iff.mpr ⟨rfl, rfl⟩), hcode]
  rw [ofPieces_codePieces]
  refine Option.bind_congr fun front _ => ?_
  simp only [hopener, Option.bind_eq_bind, Option.bind_some, hsize, hstop,
    hinner, hcloser, ← Nat.add_assoc]
  cases (lexCode (offset + byteSize before + 2) (codeOf scan)).toOption with
  | none => rfl
  | some tokens =>
      simp only [Option.bind_some, Option.map_some, List.append_assoc,
        List.cons_append]

end

/-! A body is cut into its pieces. -/

section

variable (lexCode : Nat → List Char → Except Unreadable (List Token))
  (offset : Nat) (multiline : Bool)

theorem splitFrom_eq_code {rest : List Char} {scan : Scan}
    (hscan : Literal.scanCode rest = .ok scan) (chunk before : List Char)
    (hfurther :
    splitFrom (fun offset code => (lexCode offset code).toOption) offset
      multiline (before ++ chunk.reverse ++ '\\' :: '(' :: rest)
        (byteSize (before ++ chunk.reverse) + 2 + byteSize scan.taken)
          (byteSize (before ++ chunk.reverse) + 2 + byteSize scan.taken) =
            (Literal.splitFrom multiline [] scan.rest >>=
              ofPieces lexCode
                (offset +
                  (byteSize (before ++ chunk.reverse) + 2 +
                    byteSize scan.taken))).toOption) :
    splitFrom (fun offset code => (lexCode offset code).toOption) offset
      multiline
        (before ++ chunk.reverse ++ '\\' :: '(' :: rest) (byteSize before)
        (byteSize (before ++ chunk.reverse)) =
      ((Literal.splitFrom multiline [] scan.rest).map (fun further =>
        gathered chunk ++ ⟨.opener,
          ['\\', '(']⟩ :: codePieces scan ++ further) >>=
          ofPieces lexCode (offset + byteSize before)).toOption := by
  have hchunk :=
    chunk?_eq_ofPieces lexCode offset before chunk ('\\' :: '(' :: rest)
  rw [← List.append_assoc, ← byteSize_append] at hchunk
  rw [splitFrom_code _ _ _ _ _ _ hscan, hchunk, hfurther]
  cases Literal.splitFrom multiline [] scan.rest with
  | error reason =>
      cases (ofPieces lexCode (offset + byteSize before)
        (gathered chunk)).toOption with
      | none => rfl
      | some front =>
          cases (ofPieces lexCode (offset + byteSize (before ++ chunk.reverse))
            (⟨.opener, ['\\', '(']⟩ :: codePieces scan)).toOption <;> rfl
  | ok pieces =>
      have hopener : offset + byteSize before + byteSize chunk.reverse =
          offset + byteSize (before ++ chunk.reverse) := by
        rw [byteSize_append, Nat.add_assoc]
      refine Eq.trans ?_
        (toOption_ofPieces_around lexCode _ hscan chunk pieces).symm
      rw [hopener, Nat.add_assoc offset, Nat.add_assoc offset]
      rfl

theorem splitFrom_eq_delimiter {c : Char} {rest : List Char}
    (hdelimiter : (delimiter multiline).isPrefixOf (c :: rest) = true)
    (chunk before : List Char) :
    splitFrom (fun offset code => (lexCode offset code).toOption) offset
      multiline
        (before ++ chunk.reverse ++ c :: rest) (byteSize before)
          (byteSize (before ++ chunk.reverse)) =
      (ofPieces lexCode (offset + byteSize before)
        (gathered chunk ++ [⟨.delimiter, delimiter multiline⟩])).toOption := by
  obtain ⟨inner, hinner, -⟩ := exists_rest_of_isPrefixOf hdelimiter
  have hquote : c ≠ '\\' := by
    rw [(delimiter_isPrefixOf hdelimiter).1]
    decide
  have hchunk := chunk?_eq_ofPieces lexCode offset before chunk (c :: rest)
  have hslice : slice? (before ++ chunk.reverse ++ c :: rest)
      (byteSize (before ++ chunk.reverse))
      (byteSize (before ++ chunk.reverse) + (delimiter multiline).length) =
        some (delimiter multiline) :=
    slice?_eq _ _ _ (by rw [hinner]) rfl (by rw [byteSize_delimiter])
  rw [← List.append_assoc, ← byteSize_append] at hchunk
  rw [splitFrom_cons _ _ _ _ _ fun h => hquote h.1, if_neg hquote,
    if_pos hdelimiter, hchunk, hslice]
  refine Eq.trans ?_ (toOption_ofPieces_append _ (gathered chunk) _).symm
  rw [chars_gathered, Nat.add_assoc, ← byteSize_append]
  rfl

theorem splitFrom_eq (chunk chars before : List Char) :
    splitFrom (fun offset code => (lexCode offset code).toOption) offset
      multiline
        (before ++ (chunk.reverse ++ chars)) (byteSize before)
          (byteSize (before ++ chunk.reverse)) =
      (Literal.splitFrom multiline chunk chars >>=
        ofPieces lexCode (offset + byteSize before)).toOption := by
  fun_induction Literal.splitFrom multiline chunk chars generalizing before with
  | case1 chunk =>
      rw [List.append_nil, splitFrom_nil, byteSize_append]
      have hchunk := chunk?_eq_ofPieces lexCode offset before chunk []
      rw [List.append_nil] at hchunk
      exact hchunk
  | case2 chunk rest reason hscan =>
      rw [← List.append_assoc, splitFrom_unreadable _ _ _ _ _ _ hscan]
      rfl
  | case3 chunk rest scan hscan ih =>
      have hfurther := ih (before ++ chunk.reverse ++ '\\' :: '(' :: scan.taken)
      have hplace :
          byteSize (before ++ chunk.reverse ++ '\\' :: '(' :: scan.taken) =
          byteSize (before ++ chunk.reverse) + 2 + byteSize scan.taken := by
        rw [byteSize_append, byteSize_cons, byteSize_cons,
          utf8Size_of_ascii (by decide), utf8Size_of_ascii (by decide)]
        omega
      rw [List.reverse_nil, List.nil_append, List.append_nil, hplace,
        List.append_assoc, List.cons_append, List.cons_append,
        ← scanFrom_append hscan] at hfurther
      rw [← List.append_assoc]
      exact splitFrom_eq_code lexCode offset multiline hscan chunk before
        hfurther
  | case4 chunk c rest hchar ih =>
      have hnext := ih before
      have hplace : before ++ (c :: '\\' :: chunk).reverse =
          before ++ chunk.reverse ++ ['\\', c] := by
        simp
      have hwidth : byteSize ['\\', c] = 1 + c.utf8Size := by
        rw [byteSize_cons, byteSize_cons, byteSize_nil,
          utf8Size_of_ascii (by decide), Nat.add_zero]
      rw [← List.append_assoc, hplace,
        byteSize_append (before ++ chunk.reverse), hwidth,
        List.append_assoc (before ++ chunk.reverse)] at hnext
      rw [← List.append_assoc, splitFrom_cons _ _ _ _ _ (by simpa using hchar),
        if_pos rfl]
      exact hnext
  | case5 chunk c rest hcode hescape hdelimiter =>
      rw [← List.append_assoc]
      exact splitFrom_eq_delimiter lexCode offset multiline hdelimiter
        chunk before
  | case6 chunk c rest hcode hescape hdelimiter hascii ih =>
      have hnext := ih before
      have hplace : before ++ (c :: chunk).reverse =
          before ++ chunk.reverse ++ [c] := by simp
      rw [← List.append_assoc, hplace,
        byteSize_append (before ++ chunk.reverse), byteSize_singleton hascii,
        List.append_assoc (before ++ chunk.reverse)] at hnext
      rw [← List.append_assoc]
      by_cases hbackslash : c = '\\'
      case pos =>
          obtain rfl : rest = [] := by
            cases rest with
            | nil => rfl
            | cons next further =>
                exact (hescape next further hbackslash rfl).elim
          rw [splitFrom_cons _ _ _ _ _ (by simp), if_pos hbackslash]
          exact hnext
      case neg =>
          rw [splitFrom_cons _ _ _ _ _ fun h => hbackslash h.1,
            if_neg hbackslash, if_neg hdelimiter]
          exact hnext
  | case7 chunk c rest hcode hescape hdelimiter hascii =>
      rw [← List.append_assoc,
        splitFrom_exposed _ _ _ _ _ (Nat.le_of_not_lt hascii)]
      rfl

theorem splitLiteral_eq (taken : List Char) :
    splitLiteral (fun offset code => (lexCode offset code).toOption) offset
      multiline
        (delimiter multiline ++ taken) =
      (split multiline taken >>=
        ofPieces lexCode (offset + (delimiter multiline).length)).toOption.map
        (ofChars .stringStart offset (delimiter multiline) :: ·) := by
  have hstart :
      min (delimiter multiline).length (byteSize
        (delimiter multiline ++ taken)) =
      (delimiter multiline).length := by
    rw [byteSize_append, byteSize_delimiter]
    exact Nat.min_eq_left (Nat.le_add_right _ _)
  have hquotes :
      slice? (delimiter multiline ++ taken) 0 (delimiter multiline).length =
      some (delimiter multiline) :=
    slice?_eq [] _ taken rfl rfl (by rw [byteSize_delimiter, Nat.zero_add])
  obtain ⟨h, hbody⟩ := exists_from? (delimiter multiline) taken rfl
    (byteSize_delimiter multiline).symm
  have htokens :=
    splitFrom_eq lexCode (offset + (delimiter multiline).length) multiline []
      taken []
  rw [splitLiteral, hstart, hquotes, hbody]
  simp only [Option.bind_eq_bind, Option.bind_some]
  refine Eq.trans (congrArg (Option.bind · _) htokens) ?_
  rw [split, Option.map_eq_bind]
  rfl

end

theorem lexFrom_literal {fuel offset : Nat} {c : Char} {rest : List Char}
    {multiline : Bool}
    (hlex : lexFrom fuel = fun offset code =>
      (Token.lexFrom fuel offset code).toOption)
    (hopening : opening? (c :: rest) = some multiline) :
    lexFrom (fuel + 1) offset (c :: rest) =
      (Token.lexFrom (fuel + 1) offset (c :: rest)).toOption := by
  obtain ⟨body, hbody, -⟩ :=
    exists_rest_of_isPrefixOf (opening?_eq_some hopening)
  obtain ⟨_, hremainder⟩ :=
    exists_from? _ _ hbody.symm (byteSize_delimiter multiline).symm
  have hdrop : (c :: rest).drop (delimiter multiline).length = body := by
    rw [← hbody, List.drop_left]
  rw [lexFrom, Token.lexFrom, hopening]
  dsimp only
  rw [hremainder, hdrop, hlex]
  simp only [Option.bind_eq_bind, Option.bind_some, scanBody_eq_scan,
    toOption_bind]
  cases hscan : Literal.scan multiline body with
  | error reason => rfl
  | ok scan =>
      have hchars : delimiter multiline ++ scan.taken ++ scan.rest =
          c :: rest := by
        rw [List.append_assoc, ← scanFrom_append hscan, hbody]
      have hstop : (delimiter multiline).length + byteSize scan.taken =
          byteSize (delimiter multiline ++ scan.taken) := by
        rw [byteSize_append, byteSize_delimiter]
      have htext :
          slice? (c :: rest) 0 ((delimiter multiline).length +
            byteSize scan.taken) =
          some (delimiter multiline ++ scan.taken) :=
        slice?_eq [] _ _ hchars.symm rfl (by rw [hstop, Nat.zero_add])
      obtain ⟨_, hafter⟩ := exists_from? _ _ hchars.symm hstop
      simp only [toOption_ok, Option.map_some, Option.bind_some]
      rw [htext, hafter]
      simp only [Option.bind_some, splitLiteral_eq, toOption_bind,
        Nat.add_assoc]
      rw [Option.bind_map, Option.bind_assoc]
      rfl

theorem lexFrom_eq (fuel offset : Nat) (chars : List Char) :
    lexFrom fuel offset chars = (Token.lexFrom fuel offset chars).toOption := by
  induction fuel generalizing offset chars with
  | zero => rfl
  | succ fuel ih =>
      cases chars with
      | nil => rfl
      | cons c rest =>
          cases hopening : opening? (c :: rest) with
          | some multiline =>
              exact lexFrom_literal (funext fun offset => funext fun code =>
                ih offset code) hopening
          | none =>
              rw [lexFrom, Token.lexFrom, hopening]
              dsimp only
              rw [ih, toOption_bind]
              rfl

/-- Lexing byte by byte makes the same tokens, and fails on the same texts. -/
theorem tokenize_eq (text : String) :
    tokenize text = (Token.tokenize text).toOption :=
  lexFrom_eq _ 0 text.toList

end PklAnalysis.Token.Bytewise
