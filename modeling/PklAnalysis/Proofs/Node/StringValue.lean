import PklAnalysis.Node.Literal
import PklAnalysis.Proofs.Node.Contents
import PklAnalysis.Proofs.Token.Exposure

/-!
String literals that are written to stand for given characters. The scan of the
lexer, its cut into pieces and the value of a literal each have their own
treatment of the backslash, and they agree.
-/

namespace PklAnalysis

namespace Text

theorem digitValue?_digitChar :
    ∀ digit < 16, digitValue? (Nat.digitChar digit) = some digit := by
  decide

theorem digitsValue?_concat {base : Nat} {chars : List Char}
    (hchars : chars ≠ []) (c : Char) :
    digitsValue? base (chars ++ [c]) =
      (digitsValue? base chars).bind fun value =>
      (digitValue? c).bind fun digit =>
        if digit < base then some (value * base + digit) else none := by
  have hsome : (chars ++ [c]).isEmpty = false := by simp
  have hsome' : chars.isEmpty = false := by simpa using hchars
  rw [digitsValue?, digitsValue?, hsome, hsome', if_neg Bool.false_ne_true,
    if_neg Bool.false_ne_true, List.foldlM_append]
  simp

theorem digitsValue?_toDigits (n : Nat) :
    digitsValue? 16 (Nat.toDigits 16 n) = some n := by
  induction n using Nat.strongRecOn with
  | ind n ih =>
      rw [Nat.toDigits_eq_if (by decide)]
      split
      case isTrue hlt => simp [digitsValue?, digitValue?_digitChar n hlt, hlt]
      case isFalse hle =>
          have hlast : n % 16 < 16 := Nat.mod_lt n (by decide)
          rw [digitsValue?_concat Nat.toDigits_ne_nil, ih (n / 16) (by omega),
            digitValue?_digitChar _ hlast]
          simp [hlast, Nat.div_add_mod']

theorem isSome_digitValue?_of_mem {base value : Nat} {digits : List Char}
    (hvalue : digitsValue? base digits = some value) :
    ∀ c ∈ digits, (digitValue? c).isSome = true := by
  induction digits using List.reverseRecOn generalizing value with
  | nil => exact nofun
  | append_singleton front last ih =>
      by_cases hfront : front = []
      case pos =>
          subst hfront
          cases hlast : digitValue? last with
          | none => simp [digitsValue?, hlast] at hvalue
          | some digit => simp [hlast]
      case neg =>
          rw [digitsValue?_concat hfront] at hvalue
          obtain ⟨first, hfirst, hvalue⟩ := Option.bind_eq_some_iff.mp hvalue
          obtain ⟨digit, hdigit, -⟩ := Option.bind_eq_some_iff.mp hvalue
          intro c hc
          rcases List.mem_append.mp hc with hc | hc
          · exact ih hfirst c hc
          · rw [List.mem_singleton.mp hc, hdigit]
            rfl

theorem toNat_lt_of_digitValue? {c : Char}
    (hdigit : (digitValue? c).isSome = true) :
    c.toNat < 128 := by
  have hle : ∀ {d : Char}, c ≤ d → d.toNat < 128 → c.toNat < 128 :=
    fun hle hlt =>
    Nat.lt_of_le_of_lt hle hlt
  rw [digitValue?] at hdigit
  split at hdigit
  case isTrue hrange =>
      exact hle (of_decide_eq_true (Bool.and_eq_true_iff.mp hrange).2)
        (by decide)
  case isFalse =>
      split at hdigit
      case isTrue hrange =>
          exact hle (of_decide_eq_true (Bool.and_eq_true_iff.mp hrange).2)
            (by decide)
      case isFalse =>
          split at hdigit
          case isTrue hrange =>
              exact hle (of_decide_eq_true (Bool.and_eq_true_iff.mp hrange).2)
                (by decide)
          case isFalse => cases hdigit

structure Spelling where
  digits : Char → List Char
  value : ∀ c, digitsValue? 16 (digits c) = some c.toNat

def Spelling.shortest : Spelling where
  digits c := Nat.toDigits 16 c.toNat
  value c := digitsValue?_toDigits c.toNat

variable (spelling : Spelling)

theorem Spelling.ne_of_mem {c d : Char} (hc : c ∈ spelling.digits d)
    {other : Char} (hother : digitValue? other = none) : c ≠ other := by
  rintro rfl
  have hdigit := isSome_digitValue?_of_mem (spelling.value d) c hc
  rw [hother] at hdigit
  cases hdigit

/-- A character as it is written between quotes: as itself if it is printable
and in ASCII, after a backslash if it is a quote or a backslash, and by its code
if it is another. -/
def escapeChar (c : Char) : List Char :=
  if c = '"' ∨ c = '\\' then ['\\', c]
  else if 32 ≤ c.toNat ∧ c.toNat < 127 then [c]
  else '\\' :: 'u' :: '\x7b' :: (spelling.digits c ++ ['\x7d'])

def escape (chars : List Char) : List Char :=
  chars.flatMap (escapeChar spelling)

theorem unescapeFrom_cons {c : Char} (hc : c ≠ '\\') (rest : List Char) :
    unescapeFrom none (c :: rest) = c :: unescapeFrom none rest := by
  rw [unescapeFrom]
  rintro _ _ rfl
  exact absurd rfl hc

theorem unescapeFrom_collect {digits : List Char} (hopen : '\x7d' ∉ digits)
    (collected rest : List Char) :
    unescapeFrom (some collected) (digits ++ '\x7d' :: rest) =
        (unicodeEscape? (collected.reverse ++ digits)).toList ++
          unescapeFrom none rest := by
  induction digits generalizing collected with
  | nil => simp [unescapeFrom]
  | cons c digits ih =>
      rw [List.mem_cons, not_or] at hopen
      obtain ⟨hc, hdigits⟩ := hopen
      rw [List.cons_append, unescapeFrom, if_neg (Ne.symm hc), ih hdigits]
      simp

theorem scalar?_digits (c : Char) : scalar? (spelling.digits c) = some c := by
  have hplus : ∀ rest, spelling.digits c ≠ '+' :: rest := by
    intro rest hsame
    exact spelling.ne_of_mem (hsame ▸ List.mem_cons_self) (by decide) rfl
  have hlimit : c.toNat ≤ 0xFFFFFFFF := Nat.le_of_lt_succ c.val.toNat_lt
  have hvalid : c.toNat.isValidChar := c.valid
  have hunsigned : unsigned? 16 0xFFFFFFFF (spelling.digits c) =
      some c.toNat := by
    rw [unsigned?]
    · simp [spelling.value c, hlimit]
    · exact hplus
  simp [scalar?, hunsigned, hvalid]

theorem unescapeFrom_escapeChar (c : Char) (rest : List Char) :
    unescapeFrom none (escapeChar spelling c ++ rest) =
      c :: unescapeFrom none rest := by
  rw [escapeChar]
  split
  case isTrue hquoted => rcases hquoted with rfl | rfl <;> simp [unescapeFrom]
  case isFalse hquoted =>
      have hbackslash : c ≠ '\\' := fun hsame => hquoted (.inr hsame)
      split
      case isTrue => exact unescapeFrom_cons hbackslash rest
      case isFalse =>
          have hopen : '\x7d' ∉ '\x7b' :: spelling.digits c := by
            rw [List.mem_cons, not_or]
            exact ⟨by decide,
              fun hmem => spelling.ne_of_mem hmem (by decide) rfl⟩
          have hcollect := unescapeFrom_collect hopen [] rest
          rw [List.reverse_nil, List.nil_append, unicodeEscape?, scalar?_digits]
            at hcollect
          simpa [unescapeFrom] using hcollect

/-- What has been escaped stands for the characters it has been made of. -/
theorem unescape_escape (chars : List Char) :
    unescape (escape spelling chars) = chars := by
  induction chars with
  | nil => rfl
  | cons c rest ih =>
      rw [escape, List.flatMap_cons, unescape, unescapeFrom_escapeChar]
      exact congrArg (List.cons c) ih

example :
    escape .shortest "\"\\(é".toList = "\\\"\\\\(\\u\x7be9\x7d".toList := by
  decide +kernel

end Text

namespace Token.Literal

/-- The body of a literal on one line that is closed after it, where no code is
interpolated. -/
inductive Plain : List Char → Prop
  | nil : Plain []
  | char {c : Char} {rest : List Char} (hquote : c ≠ '"')
      (hbackslash : c ≠ '\\') (hbreak : c ≠ '\n')
      (hascii : c.toNat < 128) (hrest : Plain rest) : Plain (c :: rest)
  | escape {c : Char} {rest : List Char} (hcode : c ≠ '(')
      (hrest : Plain rest) :
      Plain ('\\' :: c :: rest)

theorem delimiter_not_isPrefixOf_of_ne {c : Char} (hquote : c ≠ '"')
    (rest : List Char) :
    (delimiter false).isPrefixOf (c :: rest) = false := by
  simpa [delimiter, List.isPrefixOf] using Ne.symm hquote

theorem Plain.body {chars : List Char} (hplain : Plain chars)
    (rest : List Char) :
    Body false (chars ++ '"' :: rest) (some ⟨chars ++ ['"'], rest, true⟩) := by
  induction hplain with
  | nil => exact .close
  | @char c chars hquote hbackslash hbreak hascii _ ih =>
      have hordinary : Ordinary false c (chars ++ '"' :: rest) :=
        ⟨fun hsame => absurd hsame hbackslash, fun hsame => absurd hsame hbreak,
          delimiter_not_isPrefixOf_of_ne hquote _⟩
      exact .char hordinary hascii ih
  | escape hcode _ ih => exact .escape hcode ih

theorem Plain.scan_eq {chars : List Char} (hplain : Plain chars)
    (rest : List Char) :
    scan false (chars ++ '"' :: rest) = .ok ⟨chars ++ ['"'], rest, true⟩ :=
  toOption_eq_some.mp (hplain.body rest).scan_eq

theorem Plain.splitFrom_eq {chars : List Char} (hplain : Plain chars)
    (chunk : List Char) :
    splitFrom false chunk (chars ++ ['"']) =
      .ok (gathered (chars.reverse ++ chunk) ++ [⟨.delimiter, ['"']⟩]) := by
  induction hplain generalizing chunk with
  | nil => simp [splitFrom, delimiter]
  | @char c rest hquote hbackslash _ hascii _ ih =>
      have hdelimiter := delimiter_not_isPrefixOf_of_ne hquote (rest ++ ['"'])
      rw [List.cons_append, splitFrom, hdelimiter, if_neg Bool.false_ne_true,
        if_pos hascii, ih]
      · simp
      · rintro _ rfl
        exact absurd rfl hbackslash
      · rintro _ _ rfl
        exact absurd rfl hbackslash
  | @escape c rest hcode _ ih =>
      rw [List.cons_append, List.cons_append, splitFrom, ih]
      · simp
      · exact fun hsame => hcode hsame

theorem Plain.append {front back : List Char} (hfront : Plain front)
    (hback : Plain back) :
    Plain (front ++ back) := by
  induction hfront with
  | nil => exact hback
  | char hquote hbackslash hbreak hascii _ ih =>
      exact .char hquote hbackslash hbreak hascii ih
  | escape hcode _ ih => exact .escape hcode ih

theorem plain_of_forall {chars : List Char} (hchars : ∀ c ∈ chars,
    c ≠ '"' ∧ c ≠ '\\' ∧ c ≠ '\n' ∧ c.toNat < 128) : Plain chars := by
  induction chars with
  | nil => exact .nil
  | cons c rest ih =>
      obtain ⟨⟨hquote, hbackslash, hbreak, hascii⟩, hrest⟩ :=
        List.forall_mem_cons.mp hchars
      exact .char hquote hbackslash hbreak hascii (ih hrest)

variable (spelling : Text.Spelling)

theorem plain_escapeChar (c : Char) : Plain (Text.escapeChar spelling c) := by
  rw [Text.escapeChar]
  split
  case isTrue hquoted =>
      exact .escape (by rcases hquoted with rfl | rfl <;> decide) .nil
  case isFalse hquoted =>
      split
      case isTrue hprintable =>
          have hbreak : c ≠ '\n' := by
            rintro rfl
            exact absurd hprintable.1 (by decide)
          exact .char (fun hsame => hquoted (.inl hsame))
            (fun hsame => hquoted (.inr hsame)) hbreak
            (by omega) .nil
      case isFalse =>
          refine .escape (by decide) (plain_of_forall fun d hd => ?_)
          rcases List.mem_cons.mp hd with rfl | hd
          · decide
          · rcases List.mem_append.mp hd with hd | hd
            · have hdigit :=
                Text.isSome_digitValue?_of_mem (spelling.value c) d hd
              exact ⟨spelling.ne_of_mem hd (by decide),
                spelling.ne_of_mem hd (by decide),
                spelling.ne_of_mem hd (by decide),
                  Text.toNat_lt_of_digitValue? hdigit⟩
            · rw [List.mem_singleton.mp hd]
              decide

theorem plain_escape (chars : List Char) :
    Plain (Text.escape spelling chars) := by
  induction chars with
  | nil => exact .nil
  | cons c rest ih => exact (plain_escapeChar spelling c).append ih

theorem Plain.opening?_eq {chars : List Char} (hplain : Plain chars) :
    opening? ('"' :: (chars ++ ['"'])) = some false := by
  cases hplain with
  | nil => decide
  | char hquote => simp [opening?, delimiter, List.isPrefixOf, Ne.symm hquote]
  | escape => simp [opening?, delimiter, List.isPrefixOf]

end Token.Literal

namespace Token

/-! The tokens of a property with a literal for its value. -/

theorem lexFrom_cons {fuel offset : Nat} {c : Char} {rest : List Char}
    {kind : Kind} {tokens : List Token} (hquote : c ≠ '"')
    (hfirst : first (c :: rest) = (kind, 1))
    (hrest : lexFrom fuel (offset + c.utf8Size) rest = .ok tokens) :
    lexFrom (fuel + 1) offset (c :: rest) =
      .ok (ofChars kind offset [c] :: tokens) := by
  have hopening : Literal.opening? (c :: rest) = none := by
    simp [Literal.opening?, Literal.delimiter, List.isPrefixOf, Ne.symm hquote]
  have hsize : Text.byteSize [c] = c.utf8Size := by simp [Text.byteSize]
  simp only [lexFrom, hopening, hfirst, List.take_succ_cons, List.take_zero,
    List.drop_succ_cons, List.drop_zero, hsize, hrest]
  rfl

def bodyTokens (offset : Nat) (chars : List Char) : List Token :=
  if chars.isEmpty then [] else [ofChars .stringChars offset chars]

def literalTokens (offset : Nat) (chars : List Char) : List Token :=
  ofChars .stringStart offset ['"'] :: bodyTokens (offset + 1) chars ++
    [ofChars .stringEnd (offset + 1 + Text.byteSize chars) ['"']]

theorem ofPieces_gathered
    (lexCode : Nat → List Char → Except Literal.Unreadable (List Token))
    (offset : Nat) (chars : List Char) :
    ofPieces lexCode offset
      (Literal.gathered (chars.reverse ++ []) ++ [⟨.delimiter, ['"']⟩]) =
      .ok
        (bodyTokens offset chars ++
          [ofChars .stringEnd (offset + Text.byteSize chars) ['"']]) := by
  cases chars with
  | nil => rfl
  | cons c rest =>
      simp [Literal.gathered, ofPieces, Literal.Role.kind?, bodyTokens, bind,
        Except.bind, pure, Except.pure]

theorem lexFrom_literal {chars : List Char} (hplain : Literal.Plain chars)
    (fuel offset : Nat) :
    lexFrom (fuel + 1) offset ('"' :: (chars ++ ['"'])) =
      .ok (literalTokens offset chars) := by
  have hnil : ∀ offset, lexFrom fuel offset [] = .ok [] :=
    fun offset => by cases fuel <;> rfl
  have hscan := hplain.scan_eq []
  have hsplit := hplain.splitFrom_eq []
  have hdelimiter : Literal.delimiter false = ['"'] := rfl
  simp only [lexFrom, hplain.opening?_eq, hdelimiter, List.length_singleton,
    List.drop_succ_cons, List.drop_zero]
  rw [hscan]
  simp only [Literal.split, bind, Except.bind]
  rw [hsplit]
  simp only [ofPieces_gathered, hnil, pure, Except.pure, literalTokens]
  simp

open Match in
def openPatterns : List (Kind × Match) :=
  [(.whitespace, many fun c => c = ' ' || c = '\t' || c = '\r' || c = '\n' ||
    c = '\x0c'),
   (.lineComment, thenTake (exactly "//") restOfLine),
   (.shebang, thenTake (exactly "#!") restOfLine),
   (.identifier, plainIdentifier),
   (.identifier, quotedIdentifier),
   (.intNumber, intNumber),
   (.floatNumber, floatNumber),
   (.error, blockComment)]

theorem first_name (rest : List Char) :
    first ('x' :: ' ' :: rest) = (.identifier, 1) := by
  have hpatterns : patternsFrom 'x' = openPatterns := rfl
  rw [← firstFrom_eq, firstFrom, longestFrom, hpatterns]
  cbv

theorem first_blank (rest : List Char) :
    first (' ' :: '=' :: rest) = (.whitespace, 1) := by
  have hpatterns : patternsFrom ' ' = openPatterns := rfl
  rw [← firstFrom_eq, firstFrom, longestFrom, hpatterns]
  cbv

theorem first_blank_quote (rest : List Char) :
    first (' ' :: '"' :: rest) = (.whitespace, 1) := by
  have hpatterns : patternsFrom ' ' = openPatterns := rfl
  rw [← firstFrom_eq, firstFrom, longestFrom, hpatterns]
  cbv

theorem first_equal (rest : List Char) :
    first ('=' :: ' ' :: rest) = (.equal, 1) := by
  have hpatterns : patternsFrom '=' =
      (.equal, spelled "=") :: (.equalEqual, spelled "==") :: openPatterns :=
      rfl
  have hlength : "=".length = 1 := rfl
  have hone : spelled "=" ('=' :: ' ' :: rest) = some 1 := by
    simp [spelled, Match.exactly, hlength]
  have htwo : spelled "==" ('=' :: ' ' :: rest) = none := by
    simp [spelled, Match.exactly]
  have hstart : longestFrom ('=' :: ' ' :: rest) =
      openPatterns.foldl (longer ('=' :: ' ' :: rest)) (some (.equal, 1)) := by
    simp only [longestFrom, hpatterns, List.foldl_cons, longer, hone, htwo]
  rw [← firstFrom_eq, firstFrom, hstart]
  cbv

def assigned (chars : List Char) : String :=
  String.ofList ('x' :: ' ' :: '=' :: ' ' :: '"' :: (chars ++ ['"']))

def assignedTokens (chars : List Char) : List Token :=
  ⟨.identifier, "x", 0⟩ :: ⟨.whitespace, " ", 1⟩ :: ⟨.equal, "=", 2⟩ ::
    ⟨.whitespace, " ", 3⟩ ::
    literalTokens 4 chars

theorem tokenize_assigned {chars : List Char} (hplain : Literal.Plain chars) :
    tokenize (assigned chars) = .ok (assignedTokens chars) := by
  rw [tokenize, assigned, String.toList_ofList]
  apply lexFrom_cons (by decide) (first_name _)
  apply lexFrom_cons (by decide) (first_blank _)
  apply lexFrom_cons (by decide) (first_equal _)
  apply lexFrom_cons (by decide) (first_blank_quote _)
  exact lexFrom_literal hplain _ _

end Token

namespace Tree

def ofLiteral (chars : List Char) : Tree :=
  .node .stringLiteral ((Token.literalTokens 4 chars).map fun token =>
    .token token.kind token.text)

def ofAssigned (chars : List Char) : Tree :=
  .node .classProperty
    [.token .identifier "x", .token .whitespace " ", .token .equal "=",
      .token .whitespace " ",
     ofLiteral chars]

end Tree

theorem Grammar.parseTokens_assigned (chars : List Char) (stop : Nat) :
    parseTokens (Token.assignedTokens chars) stop =
      { tree := .node .root [Tree.ofAssigned chars], errors := [] } := by
  cases chars with
  | nil => cbv
  | cons c rest =>
      rw [Tree.ofAssigned, Tree.ofLiteral, Token.assignedTokens,
        Token.literalTokens, Token.bodyTokens, List.isEmpty_cons,
        if_neg Bool.false_ne_true, Token.ofChars, Token.ofChars, Token.ofChars]
      generalize String.ofList (c :: rest) = text
      generalize 4 + 1 + Text.byteSize (c :: rest) = offset
      cbv

theorem Document.exists_ofSource {source : Source} {parse : Grammar.Parse}
    (hparse : Grammar.parse source.text = .ok parse) :
    ∃ document, Document.ofSource source = .ok document ∧
      document.parse = parse := by
  rw [ofSource]
  split
  case h_1 hfails =>
      rw [hparse] at hfails
      cases hfails
  case h_2 found hfound =>
      exact ⟨_, rfl, Except.ok.inj (hfound.symm.trans hparse)⟩

namespace Node

theorem Stands.exists_children {node : Node} {offset : Nat} {kind : Kind}
    {trees : List Tree} {start : Nat} {tree : Tree}
    (hstands : node.Stands offset (.node kind trees))
    (hnumbered : Tree.numbered offset trees = [(start, tree)]) :
    ∃ child, node.children = [child] ∧ child.Stands start tree := by
  have hchildren := hstands.children
  rw [hnumbered] at hchildren
  obtain ⟨child, rest, hchild, hrest, hsame⟩ :=
    List.forall₂_cons_right_iff.mp hchildren
  rw [List.forall₂_nil_right_iff.mp hrest] at hsame
  exact ⟨child, hsame, hchild⟩

theorem Stands.stringValue?_eq {node : Node} {offset : Nat} {chars : List Char}
    (hstands : node.Stands offset (Tree.ofLiteral chars)) :
    node.kind = .stringLiteral ∧ node.parts = [] ∧
      node.stringValue? = some (String.ofList (Text.unescape chars)) := by
  have hkind : node.kind = .stringLiteral := hstands.kind_eq
  have hnone : node.children = [] := by
    have hchildren := hstands.children
    have hnumbered : Tree.numbered offset
        ((Token.literalTokens 4 chars).map fun token =>
          .token token.kind token.text) = [] := by
      cases chars <;> rfl
    rw [hnumbered] at hchildren
    exact List.forall₂_nil_right_iff.mp hchildren
  have hparts : node.parts = [] := by
    rw [parts, childrenOf, childrenWhere, hnone]
    rfl
  refine ⟨hkind, hparts, ?_⟩
  have hraw : (node.terminals.flatMap fun terminal =>
      if terminal.kind = .stringChars then terminal.text.toList else []) =
        chars := by
    rw [hstands.terminals_eq]
    cases chars with
    | nil => rfl
    | cons c rest =>
        simp [Slot.terminalsOf, Tree.place, Token.literalTokens,
          Token.bodyTokens, Token.ofChars, Token.Kind.isTrivia]
  rw [Node.stringValue?, hparts, hkind, hraw]
  rfl

/-- A literal whose characters are escaped has them for its value, however their
codes are spelled. -/
theorem stringValue?_escape (spelling : Text.Spelling) (chars : List Char)
    (source : Source) :
    let text := Token.assigned (Text.escape spelling chars)
    ∃ tokens document, Token.tokenize text = .ok tokens ∧
      Document.ofSource { source with text } = .ok document ∧
      document.errors = [] ∧
      ∃ property literal,
        document.root.children = [property] ∧ property.kind = .classProperty ∧
        property.children = [literal] ∧ literal.kind = .stringLiteral ∧
        literal.parts = [] ∧
        literal.stringValue? = some (String.ofList chars) := by
  intro text
  have htokens :
      Token.tokenize text =
        .ok (Token.assignedTokens (Text.escape spelling chars)) :=
    Token.tokenize_assigned (Token.Literal.plain_escape spelling chars)
  have hparse := (Grammar.parse_of_tokenize htokens).trans
    (congrArg Except.ok (Grammar.parseTokens_assigned _ _))
  let whole : Source := { source with text }
  obtain ⟨document, hdocument, hresult⟩ : ∃ document,
    Document.ofSource whole = .ok document ∧ _ :=
    Document.exists_ofSource hparse
  have hroot : document.root.Stands 0 document.parse.tree :=
    stands_root document
  rw [hresult] at hroot
  obtain ⟨property, hchildren, hproperty⟩ := hroot.exists_children rfl
  obtain ⟨literal, hbelow, hliteral⟩ := hproperty.exists_children rfl
  obtain ⟨hkind, hparts, hvalue⟩ := hliteral.stringValue?_eq
  rw [Text.unescape_escape] at hvalue
  refine ⟨_, document, htokens, hdocument, ?_, property, literal, hchildren,
    hproperty.kind_eq, hbelow, hkind, hparts, hvalue⟩
  rw [Document.errors, hresult]

end Node

end PklAnalysis
