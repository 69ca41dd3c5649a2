import PklAnalysis.Proofs.Token.Initial
import PklAnalysis.Proofs.Token.Literal

/-!
Lexing loses nothing: the tokens of a text stand one after the other, none is
empty, and together they are the text.
-/

namespace PklAnalysis

namespace Text

theorem foldl_utf8Size (size : Nat) (chars : List Char) :
    chars.foldl (fun size c => size + c.utf8Size) size =
      size + byteSize chars := by
  induction chars generalizing size with
  | nil => rfl
  | cons c rest ih =>
      rw [byteSize, List.foldl_cons, List.foldl_cons, ih, ih (0 + c.utf8Size),
        Nat.zero_add, Nat.add_assoc]

theorem byteSize_append (left right : List Char) :
    byteSize (left ++ right) = byteSize left + byteSize right := by
  rw [byteSize, List.foldl_append, foldl_utf8Size]
  rfl

theorem utf8ByteSize_ofList (chars : List Char) :
    (String.ofList chars).utf8ByteSize = byteSize chars := by
  induction chars with
  | nil => rfl
  | cons c rest ih =>
      have hcons : byteSize (c :: rest) = 0 + c.utf8Size + byteSize rest :=
        foldl_utf8Size (0 + c.utf8Size) rest
      rw [String.ofList_cons, String.utf8ByteSize_append,
        String.utf8ByteSize_singleton, ih, hcons, Nat.zero_add]

end Text

namespace Token

theorem byteSize_text (token : Token) :
    Text.byteSize token.text.toList = token.text.utf8ByteSize := by
  rw [← Text.utf8ByteSize_ofList, String.ofList_toList]

/-! Tokens that stand one after the other. -/

def charsOf (tokens : List Token) : List Char :=
  tokens.flatMap fun token => token.text.toList

def Contiguous : Nat → List Token → Prop
  | _, [] => True
  | offset, token :: rest =>
      token.offset = offset ∧ Contiguous (offset + token.text.utf8ByteSize) rest

/-- The tokens cover a text that starts at an offset. -/
structure Covers (offset : Nat) (chars : List Char) (tokens : List Token) :
    Prop where
  contiguous : Contiguous offset tokens
  nonempty : ∀ token ∈ tokens, token.text ≠ ""
  chars : charsOf tokens = chars

theorem Contiguous.append {offset : Nat} {left right : List Token}
    (hleft : Contiguous offset left)
    (hright : Contiguous (offset + Text.byteSize (charsOf left)) right) :
    Contiguous offset (left ++ right) := by
  induction left generalizing offset with
  | nil => exact hright
  | cons token rest ih =>
      refine ⟨hleft.1, ih hleft.2 ?_⟩
      rw [charsOf, List.flatMap_cons, Text.byteSize_append, byteSize_text,
        ← Nat.add_assoc]
        at hright
      exact hright

theorem covers_nil (offset : Nat) : Covers offset [] [] :=
  ⟨trivial, nofun, rfl⟩

theorem covers_ofChars (kind : Kind) (offset : Nat) {chars : List Char}
    (hchars : chars ≠ []) :
    Covers offset chars [ofChars kind offset chars] := by
  refine ⟨⟨rfl, trivial⟩, ?_, by simp [charsOf, ofChars]⟩
  intro token htoken
  cases List.mem_singleton.mp htoken
  simpa [ofChars] using hchars

theorem Covers.append {offset : Nat} {left right : List Char}
    {first second : List Token} (hleft : Covers offset left first)
    (hright : Covers (offset + Text.byteSize left) right second) :
    Covers offset (left ++ right) (first ++ second) where
  contiguous := hleft.contiguous.append (hleft.chars ▸ hright.contiguous)
  nonempty := by
    intro token htoken
    cases List.mem_append.mp htoken with
    | inl htoken => exact hleft.nonempty token htoken
    | inr htoken => exact hright.nonempty token htoken
  chars := by
    rw [charsOf, List.flatMap_append, ← hleft.chars, ← hright.chars]
    rfl

theorem bind_eq_ok {result : Except ε α} {next : α → Except ε β} {value : β} :
    result >>= next = .ok value ↔ ∃ found,
      result = .ok found ∧ next found = .ok value := by
  cases result with
  | error reason => exact ⟨nofun, nofun⟩
  | ok found =>
      exact ⟨fun h => ⟨found, rfl, h⟩,
        fun ⟨_, hfound, h⟩ => by cases hfound; exact h⟩

theorem ofPieces_covers
    {lexCode : Nat → List Char → Except Literal.Unreadable (List Token)}
    {offset : Nat} {pieces : List Literal.Piece} {tokens : List Token}
    (hchars : ∀ piece ∈ pieces, piece.role ≠ .code → piece.chars ≠ [])
    (hcode : ∀ piece ∈ pieces, ∀ offset tokens,
      lexCode offset piece.chars = .ok tokens →
        Covers offset piece.chars tokens)
    (htokens : ofPieces lexCode offset pieces = .ok tokens) :
    Covers offset (pieces.flatMap Literal.Piece.chars) tokens := by
  induction pieces generalizing offset tokens with
  | nil =>
      cases htokens
      exact covers_nil offset
  | cons piece rest ih =>
      have hrest : ∀ {next further}, ofPieces lexCode next rest = .ok further →
          Covers next (rest.flatMap Literal.Piece.chars) further :=
        ih (fun piece hpiece => hchars piece (List.mem_cons_of_mem _ hpiece))
          (fun piece hpiece => hcode piece (List.mem_cons_of_mem _ hpiece))
      rw [ofPieces] at htokens
      cases hkind : piece.role.kind? with
      | none =>
          rw [hkind] at htokens
          obtain ⟨here, hhere, htokens⟩ := bind_eq_ok.mp htokens
          obtain ⟨further, hfurther, htokens⟩ := bind_eq_ok.mp htokens
          cases htokens
          exact (hcode piece List.mem_cons_self offset here hhere).append
            (hrest hfurther)
      | some kind =>
          rw [hkind] at htokens
          obtain ⟨here, hhere, htokens⟩ := bind_eq_ok.mp htokens
          obtain ⟨further, hfurther, htokens⟩ := bind_eq_ok.mp htokens
          cases hhere
          cases htokens
          have hrole : piece.role ≠ .code := fun hrole => by
            rw [hrole] at hkind
            cases hkind
          have hpiece := hchars piece List.mem_cons_self hrole
          exact (covers_ofChars kind offset hpiece).append (hrest hfurther)

def CoversUpTo (limit : Nat)
    (lex : Nat → List Char → Except Literal.Unreadable (List Token)) :
    Prop :=
  ∀ offset chars tokens, chars.length ≤ limit → lex offset chars = .ok tokens →
    Covers offset chars tokens

theorem covers_first {limit offset : Nat} {chars : List Char}
    {further : List Token}
    {lex : Nat → List Char → Except Literal.Unreadable (List Token)}
    (hlex : CoversUpTo limit lex) (hne : chars ≠ [])
    (hlimit : chars.length ≤ limit + 1)
    (hfurther :
    lex (offset + Text.byteSize (chars.take (first chars).2))
      (chars.drop (first chars).2) = .ok further) :
    Covers offset chars
      (ofChars (first chars).1 offset (chars.take (first chars).2) ::
        further) := by
  have hpositive := first_pos chars
  have hlength := List.length_pos_iff.mpr hne
  have htaken : chars.take (first chars).2 ≠ [] := by
    intro hempty
    cases List.take_eq_nil_iff.mp hempty with
    | inl hzero => exact Nat.ne_of_gt hpositive hzero
    | inr hnil => exact hne hnil
  have hshorter : (chars.drop (first chars).2).length ≤ limit := by
    rw [List.length_drop]
    omega
  have hrest := hlex _ _ _ hshorter hfurther
  have hwhole := (covers_ofChars (first chars).1 offset htaken).append hrest
  rwa [List.take_append_drop] at hwhole

theorem covers_literal {limit offset : Nat} {multiline : Bool}
    {chars : List Char} {body further : List Token} {scan : Literal.Scan}
    {pieces : List Literal.Piece}
    {lex : Nat → List Char → Except Literal.Unreadable (List Token)}
    (hlex : CoversUpTo limit lex)
    (hopening : Literal.opening? chars = some multiline)
    (hlimit : chars.length ≤ limit + 1)
    (hscan :
    Literal.scan multiline (chars.drop (Literal.delimiter multiline).length) =
      .ok scan)
    (hpieces : Literal.split multiline scan.taken = .ok pieces)
    (hbody :
    ofPieces lex (offset + (Literal.delimiter multiline).length) pieces =
      .ok body)
    (hfurther :
    lex (offset + (Literal.delimiter multiline).length +
      Text.byteSize scan.taken) scan.rest = .ok further) :
    Covers offset chars
      (ofChars .stringStart offset (Literal.delimiter multiline) :: body ++
        further) := by
  have hstarts :=
    List.isPrefixOf_iff_prefix.mp (Literal.opening?_eq_some hopening)
  have hquotes := Literal.delimiter_length_pos multiline
  have hchars : Literal.delimiter multiline ++ (scan.taken ++ scan.rest) =
      chars := by
    rw [← Literal.scanFrom_append hscan]
    exact List.prefix_iff_eq_append.mp hstarts
  have hlength := congrArg List.length hchars
  simp only [List.length_append] at hlength
  obtain ⟨pieces', hsplit, hagrees⟩ := Literal.split_pieces hscan
  cases hpieces.symm.trans hsplit
  have hdelimiter : Text.byteSize (Literal.delimiter multiline) =
      (Literal.delimiter multiline).length := by
    cases multiline <;> rfl
  have hstart :=
    covers_ofChars .stringStart offset (List.ne_nil_of_length_pos hquotes)
  have hinner :=
    ofPieces_covers hagrees.chars_ne_nil (fun piece hpiece offset tokens =>
    hlex offset piece.chars tokens ?_) hbody
  · have hrest := hlex _ _ _ (by omega) hfurther
    rw [hagrees.chars] at hinner
    rw [← hdelimiter] at hinner hrest
    have hwhole := hstart.append (hinner.append hrest)
    rw [hchars] at hwhole
    exact hwhole
  · have hpart := hagrees.length_chars_le hpiece
    omega

theorem lexFrom_covers {fuel offset : Nat} {chars : List Char}
    {tokens : List Token} (hfuel : chars.length ≤ fuel)
    (htokens : lexFrom fuel offset chars = .ok tokens) :
    Covers offset chars tokens := by
  induction fuel generalizing offset chars tokens with
  | zero =>
      obtain rfl := List.length_eq_zero_iff.mp (Nat.le_zero.mp hfuel)
      cases htokens
      exact covers_nil offset
  | succ fuel ih =>
      cases chars with
      | nil =>
          cases htokens
          exact covers_nil offset
      | cons c rest =>
          rw [lexFrom] at htokens
          cases hopening : Literal.opening? (c :: rest) with
          | none =>
              rw [hopening] at htokens
              obtain ⟨further, hfurther, htokens⟩ := bind_eq_ok.mp htokens
              cases htokens
              have hlex : CoversUpTo fuel (lexFrom fuel) := fun _ _ _ => ih
              exact covers_first hlex (List.cons_ne_nil c rest) hfuel hfurther
          | some multiline =>
              rw [hopening] at htokens
              obtain ⟨scan, hscan, htokens⟩ := bind_eq_ok.mp htokens
              obtain ⟨pieces, hpieces, htokens⟩ := bind_eq_ok.mp htokens
              obtain ⟨body, hbody, htokens⟩ := bind_eq_ok.mp htokens
              obtain ⟨further, hfurther, htokens⟩ := bind_eq_ok.mp htokens
              cases htokens
              have hlex : CoversUpTo fuel (lexFrom fuel) := fun _ _ _ => ih
              exact covers_literal hlex hopening hfuel hscan hpieces hbody
                hfurther

theorem tokenize_covers {text : String} {tokens : List Token}
    (htokens : tokenize text = .ok tokens) : Covers 0 text.toList tokens :=
  lexFrom_covers (Nat.le_refl _) htokens

theorem join_text_of_covers {text : String} {offset : Nat} {tokens : List Token}
    (hcovers : Covers offset text.toList tokens) :
    String.join (tokens.map Token.text) = text := by
  rw [← String.toList_inj, String.toList_join, List.flatMap_map]
  exact hcovers.chars

section

variable {lexCode : Nat → List Char → Except Literal.Unreadable (List Token)}

theorem ofPieces_append (offset : Nat) (left right : List Literal.Piece) :
    ofPieces lexCode offset (left ++ right) = do
      let front ← ofPieces lexCode offset left
      let further ← ofPieces lexCode
        (offset + Text.byteSize (left.flatMap Literal.Piece.chars)) right
      return front ++ further := by
  induction left generalizing offset with
  | nil => exact (bind_pure _).symm
  | cons piece rest ih =>
      rw [List.cons_append, ofPieces, ih, ofPieces, List.flatMap_cons,
        Text.byteSize_append, ← Nat.add_assoc]
      cases piece.role.kind? <;>
        simp only [bind_assoc, pure_bind, List.append_assoc]

theorem ofPieces_singleton {piece : Literal.Piece} {kind : Kind}
    (hkind : piece.role.kind? = some kind) (offset : Nat) :
    ofPieces lexCode offset [piece] =
      .ok [ofChars kind offset piece.chars] := by
  rw [ofPieces, hkind]
  rfl

theorem ofPieces_singleton_code (offset : Nat) (code : List Char) :
    ofPieces lexCode offset [⟨.code, code⟩] = lexCode offset code := by
  change (lexCode offset code >>= fun here => .ok (here ++ [])) = _
  simp only [List.append_nil]
  exact bind_pure _

theorem exists_of_ofPieces_concat {offset : Nat} {init : List Literal.Piece}
    {last : Literal.Piece} {tokens : List Token}
    (htokens : ofPieces lexCode offset (init ++ [last]) = .ok tokens) :
    ∃ before own, ofPieces lexCode offset init = .ok before ∧
      ofPieces lexCode
        (offset + Text.byteSize (init.flatMap Literal.Piece.chars)) [last] =
          .ok own ∧ tokens = before ++ own := by
  rw [ofPieces_append] at htokens
  obtain ⟨before, hbefore, htokens⟩ := bind_eq_ok.mp htokens
  obtain ⟨own, hown, htokens⟩ := bind_eq_ok.mp htokens
  exact ⟨before, own, hbefore, hown, (Except.ok.inj htokens).symm⟩

/-- The last token is the end of a literal. -/
def EndsLiteral (tokens : List Token) : Prop :=
  tokens.getLast?.map kind = some .stringEnd

theorem not_endsLiteral_nil : ¬ EndsLiteral [] := nofun

theorem endsLiteral_concat {tokens : List Token} {last : Token} :
    EndsLiteral (tokens ++ [last]) ↔ last.kind = .stringEnd := by
  rw [EndsLiteral, List.getLast?_concat, Option.map_some, Option.some_inj]

theorem endsLiteral_append {front tokens : List Token} (hne : tokens ≠ []) :
    EndsLiteral (front ++ tokens) ↔ EndsLiteral tokens := by
  rw [EndsLiteral, EndsLiteral, List.getLast?_append,
    List.getLast?_eq_some_getLast hne, Option.some_or]

theorem Literal.Pieces.closed_iff {multiline closed : Bool} {chars : List Char}
    {init : List Piece} {last : Piece}
    (hpieces : Pieces multiline closed chars (init ++ [last])) :
    closed = true ↔ last.role = .delimiter := by
  obtain ⟨front, hfront, heq⟩ := hpieces.ends
  cases closed with
  | true =>
      obtain ⟨rfl, hlast⟩ := List.append_inj' heq rfl
      cases hlast
      exact ⟨fun _ => rfl, fun _ => rfl⟩
  | false =>
      rw [if_neg Bool.false_ne_true, List.append_nil] at heq
      have hlast := (hfront last (heq ▸ List.mem_concat_self)).role
      exact ⟨nofun, fun hrole => absurd hrole hlast⟩

theorem not_endsLiteral_of_opener {offset : Nat} {init : List Literal.Piece}
    {code : List Char} {before : List Token}
    (hopens : Literal.OpensCode (init ++ [⟨.code, code⟩]))
    (hbefore : ofPieces lexCode offset init = .ok before) :
    ¬ EndsLiteral before := by
  obtain ⟨first, rfl⟩ := hopens init code rfl
  obtain ⟨further, own, -, hown, rfl⟩ := exists_of_ofPieces_concat hbefore
  rw [ofPieces_singleton rfl] at hown
  cases hown
  rw [endsLiteral_concat]
  nofun

theorem role_eq_delimiter_of_kind? {role : Literal.Role} {kind : Kind}
    (hkind : role.kind? = some kind) :
    kind = .stringEnd ↔ role = .delimiter := by
  cases role <;> cases hkind <;> simp

/-- The last token of a literal is an end of a literal if it is closed, and
where it ends in code of which the last token is one. -/
theorem endsLiteral_ofPieces {multiline closed : Bool} {chars : List Char}
    {pieces : List Literal.Piece} {offset : Nat} {tokens : List Token}
    (hpieces : Literal.Pieces multiline closed chars pieces)
    (htokens : ofPieces lexCode offset pieces = .ok tokens) :
    EndsLiteral tokens ↔ closed = true ∨ ∃ front code nested,
      pieces = front ++ [⟨.code, code⟩] ∧
      lexCode (offset + Text.byteSize (front.flatMap Literal.Piece.chars))
        code = .ok nested ∧ EndsLiteral nested := by
  rcases List.eq_nil_or_concat pieces with rfl | ⟨init, last, rfl⟩
  · cases htokens
    obtain ⟨front, -, heq⟩ := hpieces.ends
    cases closed with
    | true => exact absurd heq.symm (List.append_ne_nil_of_right_ne_nil _ nofun)
    | false => simp [not_endsLiteral_nil]
  rw [List.concat_eq_append] at hpieces htokens ⊢
  obtain ⟨before, own, hbefore, hown, rfl⟩ := exists_of_ofPieces_concat htokens
  rw [hpieces.closed_iff]
  cases hkind : last.role.kind? with
  | some kind =>
      -- the last token is that of the last piece, which is no code
      rw [ofPieces_singleton hkind] at hown
      cases hown
      rw [endsLiteral_concat, ofChars, role_eq_delimiter_of_kind? hkind]
      refine ⟨.inl, fun hends => hends.resolve_right ?_⟩
      rintro ⟨front, code, nested, heq, -, -⟩
      cases (List.append_inj' heq rfl).2
      cases hkind
  | none =>
      obtain ⟨role, code⟩ := last
      obtain rfl : role = .code := by cases role <;> first | rfl | cases hkind
      rw [ofPieces_singleton_code] at hown
      have hsame : EndsLiteral (before ++ own) ↔ EndsLiteral own := by
        by_cases hempty : own = []
        · have hopened := not_endsLiteral_of_opener hpieces.opens hbefore
          rw [hempty, List.append_nil]
          exact iff_of_false hopened not_endsLiteral_nil
        · exact endsLiteral_append hempty
      rw [hsame]
      refine ⟨fun hends => .inr ⟨init, code, own, rfl, hown, hends⟩, ?_⟩
      rintro (hrole | ⟨front, code', nested, heq, hnested, hends⟩)
      · cases hrole
      · obtain ⟨rfl, hcode⟩ := List.append_inj' heq rfl
        cases hcode
        rwa [Except.ok.inj (hown.symm.trans hnested)]

end

/-- Every text that can be lexed is the concatenation of its tokens, none of
which is empty and which stand one after the other. The second pass over a
literal cuts exactly what the first has taken. It makes a token for a closing
delimiter exactly if the first pass has stopped at that delimiter, after all
others; apart from that the last token of a literal ends a literal only where
code that is not closed ends in one. -/
theorem tokenize_lossless :
    (∀ text tokens, tokenize text = .ok tokens →
      (∀ token ∈ tokens, token.text ≠ "") ∧ Contiguous 0 tokens ∧
        String.join (tokens.map Token.text) = text) ∧
    ∀ multiline chars scan, Literal.scan multiline chars = .ok scan →
      chars = scan.taken ++ scan.rest ∧
      ∃ pieces, Literal.split multiline scan.taken = .ok pieces ∧
        pieces.flatMap Literal.Piece.chars = scan.taken ∧
        (∃ front, (∀ piece ∈ front, piece.role ≠ .delimiter) ∧
          pieces = front ++ if scan.closed then
            [⟨.delimiter, Literal.delimiter multiline⟩] else []) ∧
        ∀ fuel offset tokens,
          ofPieces (lexFrom fuel) offset pieces = .ok tokens →
          (tokens.getLast?.map Token.kind = some .stringEnd ↔
            scan.closed = true ∨ ∃ front code nested,
              pieces = front ++ [⟨.code, code⟩] ∧
              lexFrom fuel
                (offset + Text.byteSize (front.flatMap Literal.Piece.chars))
                code = .ok nested ∧
              nested.getLast?.map Token.kind = some .stringEnd) := by
  constructor
  · intro text tokens htokens
    have hcovers := tokenize_covers htokens
    exact ⟨hcovers.nonempty, hcovers.contiguous, join_text_of_covers hcovers⟩
  · intro multiline chars scan hscan
    obtain ⟨pieces, hsplit, hpieces⟩ := Literal.split_pieces hscan
    obtain ⟨front, hfront, hends⟩ := hpieces.ends
    exact ⟨Literal.scanFrom_append hscan, pieces, hsplit, hpieces.chars,
      ⟨front, fun piece hpiece => (hfront piece hpiece).role, hends⟩,
      fun _ _ _ htokens => endsLiteral_ofPieces hpieces htokens⟩

/-- An open literal with an escape that ends in the code of a closed literal. -/
theorem tokenize_lossless_open :
    let body : List Token :=
      [⟨.stringChars, "\\é", 1⟩, ⟨.interpolationStart, "\\(", 4⟩,
       ⟨.stringStart, "\"", 6⟩, ⟨.stringChars, "b", 7⟩, ⟨.stringEnd, "\"", 8⟩]
    let tokens := ⟨.stringStart, "\"", 0⟩ :: body
    let scan : Literal.Scan := ⟨"\\é\\(\"b\"".toList, [], false⟩
    tokenize "\"\\é\\(\"b\"" = .ok tokens ∧ Contiguous 0 tokens ∧
      Literal.scan false "\\é\\(\"b\"".toList = .ok scan ∧
      ∃ pieces, Literal.split false scan.taken = .ok pieces ∧
        pieces.flatMap Literal.Piece.chars = scan.taken ∧
        ∀ fuel, ofPieces (lexFrom fuel) 1 pieces = .ok body →
          ∃ front code, pieces = front ++ [⟨.code, code⟩] := by
  intro body tokens scan
  have htokens : tokenize "\"\\é\\(\"b\"" = .ok tokens :=
    ok_of_toOption (by decide +kernel)
  have hscan : Literal.scan false "\\é\\(\"b\"".toList = .ok scan :=
    toOption_eq_some.mp (by decide +kernel)
  obtain ⟨-, pieces, hsplit, hchars, -, hends⟩ :=
    tokenize_lossless.2 _ _ _ hscan
  refine ⟨htokens, (tokenize_lossless.1 _ _ htokens).2.1, hscan, pieces,
    hsplit, hchars, fun fuel hbody => ?_⟩
  obtain hclosed | ⟨front, code, -, hpieces, -⟩ :=
    (hends fuel 1 body hbody).mp rfl
  · cases hclosed
  · exact ⟨front, code, hpieces⟩

/-- A literal that is not closed, of which the last token ends a literal: that
of the code in it. -/
theorem stringEnd_of_open_literal :
    ¬ ∀ multiline chars scan pieces, Literal.scan multiline chars = .ok scan →
      Literal.split multiline scan.taken = .ok pieces →
      ∀ fuel offset tokens, scan.taken.length ≤ fuel →
        ofPieces (lexFrom fuel) offset pieces = .ok tokens →
        (tokens.getLast?.map Token.kind = some .stringEnd ↔
          scan.closed = true) := by
  intro hall
  let scan : Literal.Scan := ⟨"\\(\"a\"".toList, [], false⟩
  let pieces : List Literal.Piece :=
    [⟨.opener, "\\(".toList⟩, ⟨.code, "\"a\"".toList⟩]
  let tokens : List Token :=
    [⟨.interpolationStart, "\\(", 1⟩, ⟨.stringStart, "\"", 3⟩,
     ⟨.stringChars, "a", 4⟩, ⟨.stringEnd, "\"", 5⟩]
  have hscan : Literal.scan false "\\(\"a\"".toList = .ok scan :=
    toOption_eq_some.mp (by decide +kernel)
  have hsplit : Literal.split false scan.taken = .ok pieces :=
    toOption_eq_some.mp (by decide +kernel)
  have htokens : ofPieces (lexFrom 5) 1 pieces = .ok tokens :=
    toOption_eq_some.mp (by decide +kernel)
  have hclosed :=
    (hall _ _ _ _ hscan hsplit 5 1 tokens (by decide) htokens).mp rfl
  cases hclosed

end Token

end PklAnalysis
