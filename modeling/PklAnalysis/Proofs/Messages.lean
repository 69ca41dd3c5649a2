import PklAnalysis.Messages

/-!
Templates of messages as what they are made of: text, and numbers of arguments
between braces. A template is filled in by one pass over it. Only what stands in
the template is read, never what has been put into it.
-/

namespace PklAnalysis

namespace Text

theorem digitValue?_of_isDigit {c : Char} (hdigit : c.isDigit = true) :
    digitValue? c = some (c.toNat - '0'.toNat) := by
  have hrange : ('0' ≤ c && c ≤ '9') = true := by
    simpa [Char.isDigit, Char.le_def, UInt32.le_iff_toNat_le] using hdigit
  rw [digitValue?, if_pos hrange]

theorem value_lt_of_isDigit {c : Char} (hdigit : c.isDigit = true) :
    c.toNat - '0'.toNat < 10 := by
  have hrange : 48 ≤ c.toNat ∧ c.toNat ≤ 57 := by
    simpa [Char.isDigit, UInt32.le_iff_toNat_le] using hdigit
  have hzero : '0'.toNat = 48 := rfl
  omega

theorem foldlM_digits {digits : List Char}
    (hdigits : ∀ c ∈ digits, c.isDigit = true) (value : Nat) :
    (digits.foldlM (fun value c => do
        let digit ← digitValue? c
        if digit < 10 then some (value * 10 + digit) else none)
          value : Option Nat) =
      some (Nat.ofDigitChars 10 digits value) := by
  induction digits generalizing value with
  | nil => rfl
  | cons c rest ih =>
      obtain ⟨hc, hrest⟩ := List.forall_mem_cons.mp hdigits
      rw [List.foldlM_cons, digitValue?_of_isDigit hc, Nat.ofDigitChars_cons,
        Nat.mul_comm 10]
      change (if c.toNat - '0'.toNat < 10 then some _ else none).bind _ = _
      rw [if_pos (value_lt_of_isDigit hc)]
      exact ih hrest _

theorem unsigned?_of_isDigit {digits : List Char} (hne : digits ≠ [])
    (hdigits : ∀ c ∈ digits, c.isDigit = true) (limit : Nat) :
    unsigned? 10 limit digits =
        if Nat.ofDigitChars 10 digits 0 ≤ limit then
          some (Nat.ofDigitChars 10 digits 0) else none := by
  have hunsigned : ∀ rest, digits ≠ '+' :: rest := by
    rintro rest rfl
    exact absurd (hdigits '+' List.mem_cons_self) (by decide)
  have hvalue : digitsValue? 10 digits =
      some (Nat.ofDigitChars 10 digits 0) := by
    rw [digitsValue?, if_neg (by simpa using hne), foldlM_digits hdigits]
  rw [unsigned?]
  · simp only [hvalue, Option.bind_eq_bind, Option.bind_some]
  · exact hunsigned

end Text

namespace Messages

/-- A piece of a template: text without an opening brace, or the number of an
argument between braces. -/
inductive Piece
  | literal (text : String) (hplain : '\x7b' ∉ text.toList)
  | place (digits : List Char) (hne : digits ≠ [])
      (hdigits : ∀ c ∈ digits, c.isDigit = true)

namespace Piece

def ofIndex (index : Nat) : Piece :=
  .place (Nat.toDigits 10 index) Nat.toDigits_ne_nil fun _ =>
    Nat.isDigit_of_mem_toDigits (by decide) (by decide)

def written : Piece → String
  | .literal text _ => text
  | .place digits _ _ => "\x7b" ++ String.ofList digits ++ "\x7d"

/-- What stands in for a piece: the argument of a place, or the place as it is
written if there is no such argument. -/
def filled (args : List String) : Piece → String
  | .literal text _ => text
  | .place digits hne hdigits =>
      args[Nat.ofDigitChars 10 digits 0]?.getD
        (place digits hne hdigits).written

theorem filled_ofIndex (args : List String) (index : Nat) :
    (ofIndex index).filled args =
      args[index]?.getD (ofIndex index).written := by
  change args[Nat.ofDigitChars 10 (Nat.toDigits 10 index) 0]?.getD _ = _
  rw [Nat.ofDigitChars_toDigits (by decide) (by decide)]
  rfl

end Piece

variable {args : List String}

def filledIn (args : List String) (chars : List Char) : List Char :=
  fillUpTo args chars.length chars

theorem length_argument?_lt {chars rest : List Char} {value : String}
    (hargument : argument? args chars = some (value, rest)) :
    rest.length < chars.length := by
  rw [argument?] at hargument
  cases hdrop : chars.dropWhile (· != '\x7d') with
  | nil => simp [hdrop] at hargument
  | cons brace after =>
      have hafter : after = rest := by
        simp only [hdrop, Option.bind_eq_bind, Option.bind_eq_some_iff,
          Option.pure_def, Option.some.injEq, Prod.mk.injEq] at hargument
        obtain ⟨-, -, -, -, -, hrest⟩ := hargument
        exact hrest
      have hsuffix :=
        (List.dropWhile_suffix (l := chars) (· != '\x7d')).length_le
      rw [hdrop, hafter, List.length_cons] at hsuffix
      exact hsuffix

theorem fillUpTo_eq_filledIn {limit : Nat} {chars : List Char}
    (hlimit : chars.length ≤ limit) :
    fillUpTo args limit chars = filledIn args chars := by
  suffices hsame : ∀ limit', chars.length ≤ limit' →
      fillUpTo args limit chars =
        fillUpTo args limit' chars from hsame _ (Nat.le_refl _)
  induction limit generalizing chars with
  | zero =>
      intro limit' _
      rw [List.eq_nil_of_length_eq_zero (Nat.le_zero.mp hlimit)]
      cases limit' <;> rfl
  | succ limit ih =>
      intro limit' hlimit'
      cases chars with
      | nil => cases limit' <;> rfl
      | cons c rest =>
          rw [List.length_cons] at hlimit hlimit'
          obtain ⟨limit', rfl⟩ :=
            Nat.exists_eq_add_of_le' (show 1 ≤ limit' by omega)
          have hrest : fillUpTo args limit rest = fillUpTo args limit' rest :=
            ih (by omega) limit' (by omega)
          rw [fillUpTo, fillUpTo, hrest]
          cases hargument : argument? args rest with
          | none => rfl
          | some found =>
              have hshorter := length_argument?_lt hargument
              have hfound : fillUpTo args limit found.2 =
                  fillUpTo args limit' found.2 :=
                ih (by omega) limit' (by omega)
              simp only [hfound]

theorem filledIn_cons {c : Char} (hc : c ≠ '\x7b') (rest : List Char) :
    filledIn args (c :: rest) = c :: filledIn args rest := by
  rw [filledIn, List.length_cons, fillUpTo, if_neg hc, filledIn]

theorem filledIn_brace (rest : List Char) : filledIn args ('\x7b' :: rest) =
    match argument? args rest with
    | some (value, rest) => value.toList ++ filledIn args rest
    | none => '\x7b' :: filledIn args rest := by
  rw [filledIn, List.length_cons, fillUpTo, if_pos rfl]
  cases hargument : argument? args rest with
  | none => rfl
  | some found =>
      have hfound : fillUpTo args rest.length found.2 = filledIn args found.2 :=
        fillUpTo_eq_filledIn (Nat.le_of_lt (length_argument?_lt hargument))
      simp only [hfound]

theorem filledIn_append {chars : List Char} (hplain : '\x7b' ∉ chars)
    (rest : List Char) :
    filledIn args (chars ++ rest) = chars ++ filledIn args rest := by
  induction chars with
  | nil => rfl
  | cons c chars ih =>
      rw [List.mem_cons, not_or] at hplain
      rw [List.cons_append, filledIn_cons (Ne.symm hplain.1), ih hplain.2,
        List.cons_append]

theorem notMem_of_isDigit {digits : List Char}
    (hdigits : ∀ c ∈ digits, c.isDigit = true) {c : Char}
    (hc : c.isDigit = false) : c ∉ digits := by
  intro hmem
  rw [hdigits c hmem] at hc
  cases hc

theorem argument?_place (hargs : args.length ≤ maxIndex + 1)
    {digits : List Char} (hne : digits ≠ [])
    (hdigits : ∀ c ∈ digits, c.isDigit = true) (rest : List Char) :
    argument? args (digits ++ '\x7d' :: rest) =
      args[Nat.ofDigitChars 10 digits 0]?.map fun value => (value, rest) := by
  have hinside : ∀ c ∈ digits, (c != '\x7d') = true := fun c hc =>
    bne_iff_ne.mpr fun hbrace => notMem_of_isDigit hdigits (by decide)
      (hbrace ▸ hc)
  have htake : (digits ++ '\x7d' :: rest).takeWhile (· != '\x7d') = digits := by
    rw [List.takeWhile_append_of_pos hinside,
      List.takeWhile_cons_of_neg (by decide), List.append_nil]
  have hdrop : (digits ++ '\x7d' :: rest).dropWhile (· != '\x7d') =
      '\x7d' :: rest := by
    rw [List.dropWhile_append_of_pos hinside,
      List.dropWhile_cons_of_neg (by decide)]
  rw [argument?, htake, hdrop]
  simp only [Text.unsigned?_of_isDigit hne hdigits]
  by_cases hsmall : Nat.ofDigitChars 10 digits 0 ≤ maxIndex
  case pos =>
      rw [if_pos hsmall, Option.map_eq_bind]
      rfl
  case neg =>
      rw [if_neg hsmall, List.getElem?_eq_none (by omega)]
      rfl

theorem filledIn_piece (hargs : args.length ≤ maxIndex + 1) (piece : Piece)
    (rest : List Char) :
    filledIn args (piece.written.toList ++ rest) =
      (piece.filled args).toList ++ filledIn args rest := by
  cases piece with
  | literal text hplain => exact filledIn_append hplain rest
  | place digits hne hdigits =>
      have hwritten : (Piece.place digits hne hdigits).written.toList =
          '\x7b' :: (digits ++ ['\x7d']) := by
        simp [Piece.written]
      have hplain : '\x7b' ∉ digits ++ ['\x7d'] := by
        rw [List.mem_append, not_or]
        exact ⟨notMem_of_isDigit hdigits (by decide), by decide⟩
      rw [hwritten, List.cons_append, List.append_assoc, List.singleton_append,
        filledIn_brace, argument?_place hargs hne hdigits, Piece.filled]
      cases args[Nat.ofDigitChars 10 digits 0]? with
      | some value => rfl
      | none =>
          have hrest : filledIn args (digits ++ '\x7d' :: rest) =
              digits ++ ['\x7d'] ++ filledIn args rest := by
            rw [← filledIn_append hplain, List.append_assoc,
              List.singleton_append]
          rw [Option.map_none, Option.getD_none, hwritten, hrest]
          rfl

theorem filledIn_pieces (hargs : args.length ≤ maxIndex + 1)
    (pieces : List Piece) :
    filledIn args (pieces.flatMap fun piece => piece.written.toList) =
      pieces.flatMap fun piece => (piece.filled args).toList := by
  induction pieces with
  | nil => rfl
  | cons piece rest ih =>
      rw [List.flatMap_cons, filledIn_piece hargs, ih, List.flatMap_cons]

/-- The message of a template is the template with every place that has an
argument replaced by it, and nothing else changed, whatever the arguments are.
Places are numbered in 64 bits, and no list of arguments is longer. -/
theorem format_of_pieces {messages : Messages} {key : String}
    {pieces : List Piece} {args : List String}
    (htemplate : messages.get? key =
      some (String.join (pieces.map Piece.written)))
    (hargs : args.length ≤ maxIndex + 1) :
    messages.format key args =
      String.join (pieces.map (Piece.filled args)) := by
  have hformat : messages.format key args =
      fill args (String.join (pieces.map Piece.written)) := by
    rw [format, htemplate]
  rw [hformat, fill, fillUpTo_eq_filledIn (Nat.le_of_eq String.length_toList),
    String.toList_join, List.flatMap_map, filledIn_pieces hargs,
    ← List.flatMap_map, ← String.toList_join, String.ofList_toList]

/-- An argument that looks like a place is left alone, and so is a place without
an argument. -/
theorem format_of_pieces_braces :
    let messages : Messages :=
      { entries := [("greet", "Hello \x7b0\x7d, \x7b1\x7d\x7d \x7b2\x7d!")] }
    let pieces : List Piece :=
      [.literal "Hello " (by decide), .ofIndex 0, .literal ", " (by decide),
      .ofIndex 1, .literal "\x7d " (by decide), .ofIndex 2,
        .literal "!" (by decide)]
    messages.get? "greet" = some (String.join (pieces.map Piece.written)) ∧
      messages.format "greet" ["\x7b1\x7d", "\x7b"] =
        "Hello \x7b1\x7d, \x7b\x7d \x7b2\x7d!" := by
  intro messages pieces
  have htemplate :
      messages.get? "greet" =
        some (String.join (pieces.map Piece.written)) := by
    decide +kernel
  refine ⟨htemplate, (format_of_pieces htemplate (by decide)).trans ?_⟩
  decide +kernel

end Messages

end PklAnalysis
