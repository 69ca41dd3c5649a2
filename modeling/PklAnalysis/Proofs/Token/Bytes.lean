import PklAnalysis.Proofs.Token.Exposure

/-!
Reading literals byte by byte. The bytes of a text are looked at one after the
other, and the text is cut at offsets in bytes, which works only between
characters. Written this way, reading a literal fails where it cuts inside a
character or counts below zero. It counts in order, and it cuts inside a
character exactly where a character beyond ASCII is exposed.
-/

namespace PklAnalysis

namespace Text

theorem byteSize_nil : byteSize [] = 0 := rfl

theorem byteSize_cons (c : Char) (rest : List Char) :
    byteSize (c :: rest) = c.utf8Size + byteSize rest := by
  rw [← List.singleton_append, byteSize_append]
  exact congrArg (· + byteSize rest) (Nat.zero_add _)

end Text

namespace Token.Bytewise

open Text Literal

def byteOf (c : Char) : UInt8 :=
  UInt8.ofNat c.toNat

def byteAt? (chars : List Char) (offset : Nat) : Option UInt8 :=
  (chars.flatMap String.utf8EncodeChar)[offset]?

theorem utf8EncodeChar_of_ascii {c : Char} (hascii : c.toNat < 128) :
    String.utf8EncodeChar c = [byteOf c] := by
  have hval : c.val.toNat ≤ 127 := Nat.le_of_lt_succ hascii
  rw [String.utf8EncodeChar, if_pos hval]
  rfl

theorem utf8Size_of_ascii {c : Char} (hascii : c.toNat < 128) :
    c.utf8Size = 1 := by
  rw [← String.length_utf8EncodeChar, utf8EncodeChar_of_ascii hascii]
  rfl

section

variable {c : Char} (hbeyond : 128 ≤ c.toNat)
include hbeyond

theorem le_of_mem_utf8EncodeChar :
    ∀ byte ∈ String.utf8EncodeChar c, 128 ≤ byte.toNat := by
  change 128 ≤ c.val.toNat at hbeyond
  rw [String.utf8EncodeChar, if_neg (by omega)]
  repeat' split
  all_goals
    simp only [List.forall_mem_cons, UInt8.toNat_ofNat', List.not_mem_nil,
      false_implies, implies_true, and_true]
    omega

theorem one_lt_utf8Size : 1 < c.utf8Size := by
  change 128 ≤ c.val.toNat at hbeyond
  rw [← String.length_utf8EncodeChar, String.utf8EncodeChar, if_neg (by omega)]
  repeat' split
  all_goals simp

end

theorem toNat_byteOf {c : Char} (hascii : c.toNat < 128) :
    (byteOf c).toNat = c.toNat := by
  rw [byteOf, UInt8.toNat_ofNat']
  omega

theorem byteOf_eq_iff {c d : Char} (hc : c.toNat < 128) (hd : d.toNat < 128) :
    byteOf c = byteOf d ↔ c = d := by
  refine ⟨fun hsame => ?_, congrArg byteOf⟩
  have hnat := congrArg UInt8.toNat hsame
  rw [toNat_byteOf hc, toNat_byteOf hd] at hnat
  exact Char.toNat_inj.mp hnat

theorem byteAt?_append (before after : List Char) (offset : Nat) :
    byteAt? (before ++ after) (byteSize before + offset) =
      byteAt? after offset := by
  have hlength : (before.flatMap String.utf8EncodeChar).length =
      byteSize before := by
    induction before with
    | nil => rfl
    | cons c rest ih =>
        rw [List.flatMap_cons, List.length_append, ih,
          String.length_utf8EncodeChar, byteSize_cons]
  rw [byteAt?, List.flatMap_append, ← hlength,
    List.getElem?_append_right (Nat.le_add_right _ _), Nat.add_sub_cancel_left]
  rfl

theorem exists_byteAt? {c : Char} (hbeyond : 128 ≤ c.toNat) (rest : List Char)
    {offset : Nat} (hoffset : offset < c.utf8Size) :
    ∃ byte, byteAt? (c :: rest) offset = some byte ∧ 128 ≤ byte.toNat := by
  have hlength : offset < (String.utf8EncodeChar c).length := by
    rwa [String.length_utf8EncodeChar]
  refine ⟨(String.utf8EncodeChar c)[offset], ?_, ?_⟩
  · rw [byteAt?, List.flatMap_cons, List.getElem?_append_left hlength]
    exact List.getElem?_eq_getElem hlength
  · exact le_of_mem_utf8EncodeChar hbeyond _ (List.getElem_mem hlength)

theorem byteAt?_inside {c d : Char} (before rest : List Char) {offset : Nat}
    (hbeyond : 128 ≤ c.toNat) (hoffset : offset < c.utf8Size)
    (hd : d.toNat < 128) :
    byteAt? (before ++ c :: rest) (byteSize before + offset) ≠
      some (byteOf d) := by
  intro hsame
  obtain ⟨byte, hbyte, hhigh⟩ := exists_byteAt? hbeyond rest hoffset
  rw [byteAt?_append, hbyte, Option.some.injEq] at hsame
  rw [hsame, toNat_byteOf hd] at hhigh
  omega

theorem byteAt?_eq_some_iff {before after : List Char} {d : Char}
    (hd : d.toNat < 128) :
    byteAt? (before ++ after) (byteSize before) = some (byteOf d) ↔
      after.head? = some d := by
  have hstart := byteAt?_append before after 0
  rw [Nat.add_zero] at hstart
  rw [hstart]
  cases after with
  | nil => exact iff_of_false nofun nofun
  | cons c rest =>
      rw [List.head?_cons, Option.some.injEq]
      by_cases hc : c.toNat < 128
      case pos =>
          have hfirst : byteAt? (c :: rest) 0 = some (byteOf c) := by
            rw [byteAt?, List.flatMap_cons, utf8EncodeChar_of_ascii hc]
            rfl
          rw [hfirst, Option.some.injEq, byteOf_eq_iff hc hd]
      case neg =>
          have hinside : byteAt? (c :: rest) 0 ≠ some (byteOf d) :=
            byteAt?_inside [] rest (Nat.le_of_not_lt hc)
              (Char.utf8Size_pos c) hd
          exact iff_of_false hinside fun hsame => hc (hsame ▸ hd)

/-- The parts of a text before and after an offset, if that is not inside a
character. -/
def cut? : List Char → Nat → Option (List Char × List Char)
  | chars, 0 => some ([], chars)
  | [], _ + 1 => none
  | c :: rest, offset + 1 =>
      if c.utf8Size ≤ offset + 1 then
        (cut? rest (offset + 1 - c.utf8Size)).map fun parts =>
          (c :: parts.1, parts.2)
      else none

theorem append_of_cut? {chars : List Char} {offset : Nat}
    {parts : List Char × List Char} (hcut : cut? chars offset = some parts) :
    parts.1 ++ parts.2 = chars ∧ byteSize parts.1 = offset := by
  fun_induction cut? chars offset generalizing parts with
  | case1 =>
      cases hcut
      exact ⟨rfl, rfl⟩
  | case2 => cases hcut
  | case3 c rest offset hle ih =>
      obtain ⟨inner, hinner, rfl⟩ := Option.map_eq_some_iff.mp hcut
      obtain ⟨rfl, hsize⟩ := ih hinner
      refine ⟨rfl, ?_⟩
      rw [byteSize_cons, hsize]
      omega
  | case4 => cases hcut

theorem cut?_append (before after : List Char) :
    cut? (before ++ after) (byteSize before) = some (before, after) := by
  induction before with
  | nil => cases after <;> rfl
  | cons c rest ih =>
      obtain ⟨size, hsize⟩ : ∃ size, c.utf8Size = size + 1 :=
        Nat.exists_eq_add_of_le' (Char.utf8Size_pos c)
      rw [byteSize_cons, hsize, Nat.add_right_comm, List.cons_append, cut?,
        hsize, if_pos (by omega), Nat.add_right_comm, Nat.add_sub_cancel_left,
        ih]
      rfl

theorem cut?_inside (before after : List Char) {c : Char}
    (hbeyond : 128 ≤ c.toNat) :
    cut? (before ++ c :: after) (byteSize before + 1) = none := by
  have hwide := one_lt_utf8Size hbeyond
  induction before with
  | nil =>
      rw [byteSize_nil, List.nil_append, cut?, if_neg (by omega)]
  | cons d rest ih =>
      rw [byteSize_cons, List.cons_append, cut?, if_pos (by omega)]
      have hoffset : d.utf8Size + byteSize rest + 1 - d.utf8Size =
          byteSize rest + 1 := by omega
      rw [hoffset, ih]
      rfl

def from? (chars : List Char) (start : Nat) :
    Option { rest : List Char // start + byteSize rest = byteSize chars } :=
  (cut? chars start).attach.map fun ⟨parts, hcut⟩ => ⟨parts.2, by
    obtain ⟨hparts, hsize⟩ := append_of_cut? hcut
    rw [← hparts, byteSize_append, hsize]⟩

def slice? (chars : List Char) (start stop : Nat) : Option (List Char) :=
  if start ≤ stop then do
    let rest ← from? chars start
    let parts ← cut? rest.1 (stop - start)
    return parts.1
  else none

def minus? (count less : Nat) : Option Nat :=
  if less ≤ count then some (count - less) else none

def escapeSize? (chars : List Char) (offset : Nat) :
    Option { size : Nat // 0 < size } := do
  let rest ← from? chars (offset + 1)
  return ⟨1 + (rest.1.head?.map Char.utf8Size).getD 0,
    Nat.add_pos_left Nat.one_pos _⟩

theorem exists_from? {chars : List Char} {start : Nat}
    (before after : List Char) (hchars : chars = before ++ after)
    (hstart : start = byteSize before) :
    ∃ h, from? chars start = some ⟨after, h⟩ := by
  subst hchars hstart
  refine ⟨(byteSize_append before after).symm, ?_⟩
  rw [from?, Option.map_eq_some_iff]
  refine ⟨⟨(before, after), cut?_append before after⟩, ?_, rfl⟩
  exact Option.attach_eq_some_iff.mpr (cut?_append before after)

theorem from?_inside (before after : List Char) {c : Char}
    (hbeyond : 128 ≤ c.toNat) :
    from? (before ++ c :: after) (byteSize before + 1) = none := by
  rw [from?, Option.map_eq_none_iff, Option.attach_eq_none_iff]
  exact cut?_inside before after hbeyond

theorem exists_from?_escape (before rest : List Char) :
    ∃ h, from? (before ++ '\\' :: rest) (byteSize before + 1) =
      some ⟨rest, h⟩ :=
  exists_from? (before ++ ['\\']) rest (by simp) (by rw [byteSize_append]; rfl)

theorem exists_from?_opener (before code : List Char) :
    ∃ h, from? (before ++ '\\' :: '(' :: code) (byteSize before + 2) =
      some ⟨code, h⟩ :=
  exists_from? (before ++ ['\\', '(']) code (by simp)
    (by rw [byteSize_append]; rfl)

theorem slice?_append (before middle after : List Char) :
    slice? (before ++ (middle ++ after)) (byteSize before)
      (byteSize before + byteSize middle) = some middle := by
  obtain ⟨h, hrest⟩ := exists_from? before (middle ++ after) rfl rfl
  rw [slice?, if_pos (Nat.le_add_right _ _), hrest, Nat.add_sub_cancel_left]
  simp only [Option.bind_eq_bind, Option.bind_some, cut?_append, pure]

theorem slice?_eq {chars : List Char} {start stop : Nat}
    (before middle after : List Char)
    (hchars : chars = before ++ (middle ++ after))
    (hstart : start = byteSize before)
    (hstop : stop = start + byteSize middle) :
    slice? chars start stop = some middle := by
  subst hchars hstart hstop
  exact slice?_append before middle after

mutual

/-- Where the body of a literal ends, scanned from byte `i` on. -/
def scanBody (multiline : Bool) (chars : List Char) (i : Nat) : Option Nat :=
  if _h : i < byteSize chars then
    if byteAt? chars i = some (byteOf '\\') ∧ byteAt? chars (i +
        1) = some (byteOf '(') then do
      let code ← from? chars (i + 2)
      let (size, _) ← scanCode 0 code.1 0
      scanBody multiline chars (i + 2 + size)
    else if byteAt? chars i = some (byteOf '\\') then do
      let size ← escapeSize? chars i
      scanBody multiline chars (i + size.1)
    else if byteAt? chars i = some (byteOf '\n') ∧ multiline = false then
      some i
    else do
      let rest ← from? chars i
      if (delimiter multiline).isPrefixOf rest.1 then
        some (i + (delimiter multiline).length)
      else
        scanBody multiline chars (i + 1)
  else
    some (byteSize chars)
termination_by byteSize chars - i

/-- Where interpolated code ends, scanned from byte `i` on when parentheses are
open in it, and whether it is closed there. -/
def scanCode (depth : Nat) (chars : List Char) (i : Nat) :
    Option (Nat × Bool) :=
  if _h : i < byteSize chars then
    if byteAt? chars i = some (byteOf '(') then
      scanCode (depth + 1) chars (i + 1)
    else if byteAt? chars i = some (byteOf ')') ∧ depth = 0 then
      some (i + 1, true)
    else if byteAt? chars i = some (byteOf ')') then do
      let depth ← minus? depth 1
      scanCode depth chars (i + 1)
    else if byteAt? chars i = some (byteOf '"') then do
      let here ← from? chars i
      let multiline := (delimiter true).isPrefixOf here.1
      let start := i + (delimiter multiline).length
      let inner ← from? chars start
      let size ← scanBody multiline inner.1 0
      scanCode depth chars (start + size)
    else
      scanCode depth chars (i + 1)
  else
    some (byteSize chars, false)
termination_by byteSize chars - i
decreasing_by
  · omega
  · omega
  · have hquotes := delimiter_length_pos multiline
    omega
  · have hquotes := delimiter_length_pos ((delimiter true).isPrefixOf here.1)
    omega
  · omega

end

theorem byteSize_singleton {c : Char} (hascii : c.toNat < 128) :
    byteSize [c] = 1 := by
  rw [byteSize_cons, utf8Size_of_ascii hascii, byteSize_nil]

theorem byteSize_concat {before : List Char} {c : Char}
    (hascii : c.toNat < 128) :
    byteSize (before ++ [c]) = byteSize before + 1 := by
  rw [byteSize_append, byteSize_singleton hascii]

theorem byteSize_lt (before after : List Char) (c : Char) :
    byteSize before < byteSize (before ++ c :: after) := by
  have hpositive := Char.utf8Size_pos c
  rw [byteSize_append, byteSize_cons]
  omega

theorem byteSize_delimiter (multiline : Bool) :
    byteSize (delimiter multiline) = (delimiter multiline).length := by
  cases multiline <;> rfl

theorem exists_quotes (rest : List Char) :
    ∃ inner,
      '"' :: rest = delimiter ((delimiter true).isPrefixOf ('"' :: rest)) ++
        inner := by
  cases hstarts : (delimiter true).isPrefixOf ('"' :: rest) with
  | true =>
      obtain ⟨inner, hinner⟩ := List.isPrefixOf_iff_prefix.mp hstarts
      exact ⟨inner, hinner.symm⟩
  | false => exact ⟨rest, rfl⟩

theorem opening?_quote (rest : List Char) :
    opening? ('"' :: rest) =
      some ((delimiter true).isPrefixOf ('"' :: rest)) := by
  rw [opening?]
  cases hstarts : (delimiter true).isPrefixOf ('"' :: rest) with
  | true => rfl
  | false => rfl

theorem byteAt?_head_iff {before after : List Char} {c d : Char}
    (hd : d.toNat < 128) :
    byteAt? (before ++ c :: after) (byteSize before) = some (byteOf d) ↔
      c = d := by
  rw [byteAt?_eq_some_iff hd, List.head?_cons, Option.some.injEq]

theorem byteAt?_next_iff {before after : List Char} {c d : Char}
    (hc : c.toNat < 128) (hd : d.toNat < 128) :
    byteAt? (before ++ c :: after) (byteSize before + 1) = some (byteOf d) ↔
      after.head? = some d := by
  rw [List.append_cons, ← byteSize_concat hc]
  exact byteAt?_eq_some_iff hd

theorem opener_iff {before rest : List Char} {c : Char} :
    (byteAt? (before ++ c :: rest) (byteSize before) = some (byteOf '\\') ∧
      byteAt? (before ++ c :: rest) (byteSize before + 1) = some (byteOf '(')) ↔
        c = '\\' ∧ rest.head? = some '(' := by
  rw [byteAt?_head_iff (by decide)]
  refine and_congr_right fun hbackslash => ?_
  subst hbackslash
  exact byteAt?_next_iff (by decide) (by decide)

section

variable {before rest : List Char} {c : Char} (hbeyond : 128 ≤ c.toNat)
include hbeyond

/-! No byte inside a character that is exposed is one of those that are looked
for. -/

theorem byteAt?_second {d : Char} (hd : d.toNat < 128) :
    byteAt? (before ++ c :: rest) (byteSize before + 1) ≠ some (byteOf d) :=
  byteAt?_inside before rest hbeyond (one_lt_utf8Size hbeyond) hd

theorem second_lt_byteSize :
    byteSize before + 1 < byteSize (before ++ c :: rest) := by
  have hwide := one_lt_utf8Size hbeyond
  rw [byteSize_append, byteSize_cons]
  omega

end

section

variable (multiline : Bool) (before : List Char)

theorem scanBody_nil :
    scanBody multiline before (byteSize before) = some (byteSize before) := by
  rw [scanBody, dif_neg (Nat.lt_irrefl _)]

theorem scanBody_cons (c : Char) (rest : List Char) :
    scanBody multiline (before ++ c :: rest) (byteSize before) =
      if c = '\\' ∧ rest.head? = some '(' then
        (scanCode 0 rest.tail 0).bind fun found =>
          scanBody multiline (before ++ c :: rest)
            (byteSize before + 2 + found.1)
      else if c = '\\' then
        scanBody multiline (before ++ c :: rest)
          (byteSize before + (1 + (rest.head?.map Char.utf8Size).getD 0))
      else if c = '\n' ∧ multiline = false then
        some (byteSize before)
      else if (delimiter multiline).isPrefixOf (c :: rest) then
        some (byteSize before + (delimiter multiline).length)
      else
        scanBody multiline (before ++ c :: rest) (byteSize before + 1) := by
  rw [scanBody, dif_pos (byteSize_lt before rest c)]
  refine ite_congr (propext opener_iff) (fun hopener => ?_) fun _ => ?_
  · obtain ⟨rfl, hparen⟩ := hopener
    obtain ⟨code, rfl⟩ := List.head?_eq_some_iff.mp hparen
    obtain ⟨h, hcode⟩ := exists_from?_opener before code
    rw [hcode]
    rfl
  refine ite_congr (propext (byteAt?_head_iff (by decide))) (fun hescape => ?_)
    fun _ => ?_
  · subst hescape
    obtain ⟨h, hrest⟩ := exists_from?_escape before rest
    rw [escapeSize?, hrest]
    rfl
  refine ite_congr (propext (and_congr_left' (byteAt?_head_iff (by decide))))
    (fun _ => rfl)
    fun _ => ?_
  obtain ⟨h, hrest⟩ := exists_from? before (c :: rest) rfl rfl
  rw [hrest]
  rfl

/-- Where a character is exposed, the scan cuts inside it. -/
theorem scanBody_exposed {c : Char} (hbeyond : 128 ≤ c.toNat)
    (rest : List Char) :
    scanBody multiline (before ++ c :: rest) (byteSize before) = none := by
  have hescape : c ≠ '\\' := ne_of_exposed hbeyond (by decide)
  have hline : c ≠ '\n' := ne_of_exposed hbeyond (by decide)
  rw [scanBody_cons, if_neg (fun h => hescape h.1), if_neg hescape,
    if_neg (fun h => hline h.1),
    if_neg (not_delimiter_of_exposed multiline hbeyond), scanBody,
    dif_pos (second_lt_byteSize hbeyond),
    if_neg (fun h => byteAt?_second hbeyond (by decide) h.1),
    if_neg (byteAt?_second hbeyond (by decide)),
    if_neg (fun h => byteAt?_second hbeyond (by decide) h.1),
    from?_inside before rest hbeyond]
  rfl

theorem scanCode_nil (depth : Nat) :
    scanCode depth before (byteSize before) =
      some (byteSize before, false) := by
  rw [scanCode, dif_neg (Nat.lt_irrefl _)]

theorem scanCode_cons (depth : Nat) (c : Char) (rest : List Char) :
    scanCode depth (before ++ c :: rest) (byteSize before) =
      if c = '(' then
        scanCode (depth + 1) (before ++ c :: rest) (byteSize before + 1)
      else if c = ')' ∧ depth = 0 then
        some (byteSize before + 1, true)
      else if c = ')' then
        scanCode (depth - 1) (before ++ c :: rest) (byteSize before + 1)
      else if c = '"' then
        let multiline := (delimiter true).isPrefixOf (c :: rest)
        (scanBody multiline ((c :: rest).drop (delimiter multiline).length)
            0).bind fun size =>
          scanCode depth (before ++ c :: rest)
            (byteSize before + (delimiter multiline).length + size)
      else
        scanCode depth (before ++ c :: rest) (byteSize before + 1) := by
  rw [scanCode, dif_pos (byteSize_lt before rest c)]
  refine ite_congr (propext (byteAt?_head_iff (by decide))) (fun _ => rfl)
    fun _ => ?_
  refine ite_congr (propext (and_congr_left' (byteAt?_head_iff (by decide))))
    (fun _ => rfl)
    fun hclose => ?_
  refine ite_congr (propext (byteAt?_head_iff (by decide))) (fun hparen => ?_)
    fun _ => ?_
  · have hdepth : 1 ≤ depth := Nat.one_le_iff_ne_zero.mpr fun hzero =>
      hclose ⟨hparen, hzero⟩
    rw [minus?, if_pos hdepth]
    rfl
  refine ite_congr (propext (byteAt?_head_iff (by decide))) (fun hquote => ?_)
    fun _ => rfl
  subst hquote
  obtain ⟨h, hhere⟩ := exists_from? before ('"' :: rest) rfl rfl
  obtain ⟨inner, hinner⟩ := exists_quotes rest
  rw [hhere]
  simp only [Option.bind_eq_bind, Option.bind_some]
  generalize hmultiline : (delimiter true).isPrefixOf ('"' :: rest) =
    multiline at hinner ⊢
  obtain ⟨h, hbody⟩ : ∃ h, from? (before ++ '"' :: rest)
      (byteSize before + (delimiter multiline).length) = some ⟨inner, h⟩ :=
    exists_from? (before ++ delimiter multiline) inner
      (by rw [hinner, List.append_assoc])
      (by rw [byteSize_append, byteSize_delimiter])
  have hdrop : ('"' :: rest).drop (delimiter multiline).length = inner := by
    rw [hinner, List.drop_left]
  rw [hbody, hdrop]
  rfl

theorem scanCode_inside (depth : Nat) {c : Char} (hbeyond : 128 ≤ c.toNat)
    (rest : List Char) {offset : Nat} (hoffset : offset ≤ c.utf8Size) :
    scanCode depth (before ++ c :: rest) (byteSize before + offset) =
      scanCode depth (before ++ c :: rest) (byteSize before + c.utf8Size) := by
  induction hleft : c.utf8Size - offset generalizing offset with
  | zero =>
      obtain rfl : offset = c.utf8Size := by omega
      rfl
  | succ left ih =>
      have hlt : byteSize before + offset < byteSize (before ++ c :: rest) := by
        rw [byteSize_append, byteSize_cons]
        omega
      have hinside : ∀ {d : Char}, d.toNat < 128 →
          byteAt? (before ++ c :: rest) (byteSize before + offset) ≠
            some (byteOf d) :=
        byteAt?_inside before rest hbeyond (by omega)
      rw [scanCode, dif_pos hlt, if_neg (hinside (by decide)),
        if_neg fun h => hinside (by decide) h.1, if_neg (hinside (by decide)),
        if_neg (hinside (by decide)), Nat.add_assoc]
      exact ih (by omega) (by omega)

theorem scanCode_char (depth : Nat) {c : Char} (hparen : c ≠ '(' ∧ c ≠ ')')
    (hquote : c ≠ '"') (rest : List Char) :
    scanCode depth (before ++ c :: rest) (byteSize before) =
      scanCode depth (before ++ c :: rest) (byteSize before + c.utf8Size) := by
  by_cases hascii : c.toNat < 128
  case pos =>
      rw [scanCode_cons, if_neg hparen.1, if_neg fun h => hparen.2 h.1,
        if_neg hparen.2, if_neg hquote, utf8Size_of_ascii hascii]
  case neg =>
      exact scanCode_inside before depth (Nat.le_of_not_lt hascii) rest
        (Nat.zero_le _)

end

/-! The scan of bytes follows the rules. -/

section

variable (before taken rest : List Char) {found : Option Scan} {size : Nat}
  (hsize : byteSize taken = size)
include hsize

theorem scanBody_resume {multiline : Bool}
    (hrest :
    scanBody multiline (before ++ taken ++ rest) (byteSize (before ++ taken)) =
      found.map fun scan => byteSize (before ++ taken) + byteSize scan.taken) :
    scanBody multiline (before ++ (taken ++ rest)) (byteSize before + size) =
      (found.map (Scan.prepend taken)).map fun scan =>
        byteSize before + byteSize scan.taken := by
  rw [← hsize, ← byteSize_append, ← List.append_assoc, hrest, Option.map_map]
  refine congrArg (Option.map · found) (funext fun scan => ?_)
  rw [Function.comp_apply, Scan.prepend, byteSize_append, byteSize_append,
    Nat.add_assoc]

theorem scanCode_resume {depth : Nat}
    (hrest :
    scanCode depth (before ++ taken ++ rest) (byteSize (before ++ taken)) =
      found.map fun scan =>
        (byteSize (before ++ taken) + byteSize scan.taken, scan.closed)) :
    scanCode depth (before ++ (taken ++ rest)) (byteSize before + size) =
      (found.map (Scan.prepend taken)).map fun scan =>
        (byteSize before + byteSize scan.taken, scan.closed) := by
  rw [← hsize, ← byteSize_append, ← List.append_assoc, hrest, Option.map_map]
  refine congrArg (Option.map · found) (funext fun scan => ?_)
  rw [Function.comp_apply, Scan.prepend, byteSize_append, byteSize_append,
    Nat.add_assoc]

end

theorem scanBody_delimiter (multiline : Bool) (before rest : List Char) :
    scanBody multiline (before ++ (delimiter multiline ++ rest))
      (byteSize before) =
      some (byteSize before + (delimiter multiline).length) := by
  have hstarts :
      (delimiter multiline).isPrefixOf (delimiter multiline ++ rest) = true :=
    List.isPrefixOf_iff_prefix.mpr (List.prefix_append _ _)
  rw [← cons_tail_delimiter] at hstarts ⊢
  rw [scanBody_cons, if_neg (by simp), if_neg (by decide), if_neg (by simp),
    if_pos hstarts]

theorem scanBody_ordinary {multiline : Bool} {c : Char} {rest : List Char}
    (before : List Char) (hordinary : Ordinary multiline c rest) :
    scanBody multiline (before ++ c :: rest) (byteSize before) =
      scanBody multiline (before ++ c :: rest) (byteSize before + 1) := by
  obtain ⟨hescape, hline, hdelimiter⟩ := hordinary
  rw [scanBody_cons]
  by_cases hbackslash : c = '\\'
  case pos =>
      rw [hescape hbackslash, if_neg (by simp), if_pos hbackslash]
      rfl
  case neg =>
      rw [if_neg fun h => hbackslash h.1, if_neg hbackslash, if_neg fun h => ?_,
        hdelimiter, if_neg Bool.false_ne_true]
      rw [hline h.1] at h
      cases h.2

theorem scanCode_quote {depth : Nat} {multiline : Bool}
    {before rest : List Char}
    (hopening : opening? (delimiter multiline ++ rest) = some multiline) :
    scanCode depth (before ++ (delimiter multiline ++ rest)) (byteSize before) =
      (scanBody multiline rest 0).bind fun size =>
        scanCode depth (before ++ (delimiter multiline ++ rest))
          (byteSize before + ((delimiter multiline).length + size)) := by
  have hdrop : (delimiter multiline ++ rest).drop (delimiter multiline).length =
      rest :=
    List.drop_left
  rw [← cons_tail_delimiter] at hopening hdrop ⊢
  rw [opening?_quote, Option.some.injEq] at hopening
  rw [scanCode_cons, if_neg (by decide), if_neg (by simp), if_neg (by decide),
    if_pos rfl]
  simp only [hopening, hdrop, Nat.add_assoc]

mutual

theorem scanBody_eq :
    {multiline : Bool} → {chars : List Char} → {found : Option Scan} →
    Body multiline chars found → ∀ before : List Char,
      scanBody multiline (before ++ chars) (byteSize before) =
        found.map fun scan => byteSize before + byteSize scan.taken
  | multiline, _, _, .finish, before => by
      rw [List.append_nil]
      exact scanBody_nil multiline before
  | multiline, _, _, @Body.close _ rest, before => by
      rw [scanBody_delimiter, Option.map_some, byteSize_delimiter]
  | _, _, _, @Body.line rest, before => by
      rw [scanBody_cons, if_neg (by simp), if_neg (by decide),
        if_pos ⟨rfl, rfl⟩]
      rfl
  | multiline, _, _, @Body.escape _ c rest found hchar hrest, before => by
      rw [scanBody_cons, if_neg (by simpa using hchar), if_pos rfl]
      refine scanBody_resume before ['\\', c] _ ?_ (scanBody_eq hrest _)
      rw [byteSize_cons, byteSize_cons, byteSize_nil]
      rfl
  | multiline, _, _, @Body.code _ rest code found hcode hrest, before => by
      have hsize := scanCode_eq hcode []
      rw [List.nil_append, byteSize_nil] at hsize
      rw [scanBody_cons, if_pos ⟨rfl, rfl⟩, List.tail_cons, hsize]
      have hresume := scanBody_resume before ('\\' :: '(' :: code.taken) _ rfl
        (scanBody_eq hrest _)
      rw [List.cons_append, List.cons_append, ← hcode.append] at hresume
      have hopener : byteSize ('\\' :: '(' :: code.taken) =
          2 + byteSize code.taken := by
        rw [byteSize_cons, byteSize_cons, utf8Size_of_ascii (by decide),
          utf8Size_of_ascii (by decide), ← Nat.add_assoc]
      rw [← hresume, hopener, Option.map_some, Option.bind_some, Nat.zero_add,
        Nat.add_assoc]
  | multiline, _, _, @Body.exposedCode _ rest hcode, before => by
      have hsize := scanCode_eq hcode []
      rw [List.nil_append, byteSize_nil] at hsize
      rw [scanBody_cons, if_pos ⟨rfl, rfl⟩, List.tail_cons, hsize]
      rfl
  | multiline, _, _, @Body.char _ c rest found hordinary hascii hrest, before => by
      rw [scanBody_ordinary before hordinary]
      exact scanBody_resume before [c] _ (byteSize_singleton hascii)
        (scanBody_eq hrest _)
  | multiline, _, _, @Body.exposed _ c rest hbeyond, before =>
      scanBody_exposed multiline before hbeyond rest

theorem scanCode_eq :
    {depth : Nat} → {chars : List Char} → {found : Option Scan} →
    Code depth chars found → ∀ before : List Char,
      scanCode depth (before ++ chars) (byteSize before) =
        found.map fun scan =>
          (byteSize before + byteSize scan.taken, scan.closed)
  | depth, _, _, .finish, before => by
      rw [List.append_nil]
      exact scanCode_nil before depth
  | _, _, _, @Code.close rest, before => by
      rw [scanCode_cons, if_neg (by decide), if_pos ⟨rfl, rfl⟩]
      rfl
  | _, _, _, @Code.opened depth rest found hrest, before => by
      rw [scanCode_cons, if_pos rfl]
      exact scanCode_resume before ['('] _ rfl (scanCode_eq hrest _)
  | _, _, _, @Code.closed depth rest found hrest, before => by
      rw [scanCode_cons, if_neg (by decide), if_neg (by simp), if_pos rfl]
      exact scanCode_resume before [')'] _ rfl (scanCode_eq hrest _)
  | depth, _, _, @Code.literal _ multiline rest body found hopening hbody hrest,
      before => by
      have hsize := scanBody_eq hbody []
      rw [List.nil_append, byteSize_nil] at hsize
      rw [scanCode_quote hopening, hsize]
      have hresume :=
        scanCode_resume before (delimiter multiline ++ body.taken) _ rfl
        (scanCode_eq hrest _)
      rw [List.append_assoc, ← hbody.append] at hresume
      rw [← hresume, byteSize_append, byteSize_delimiter, Option.map_some,
        Option.bind_some, Nat.zero_add]
  | depth, _, _, @Code.exposed _ multiline rest hopening hbody, before => by
      have hsize := scanBody_eq hbody []
      rw [List.nil_append, byteSize_nil] at hsize
      rw [scanCode_quote hopening, hsize]
      rfl
  | depth, _, _, @Code.char _ c rest found hparen hopening hrest, before => by
      have hquote : c ≠ '"' := by
        rintro rfl
        rw [opening?_quote] at hopening
        cases hopening
      rw [scanCode_char before depth hparen hquote rest]
      refine scanCode_resume before [c] _ ?_ (scanCode_eq hrest _)
      rw [byteSize_cons, byteSize_nil, Nat.add_zero]

end

/-- Scanning bytes finds where a literal ends, and fails where a character is
exposed in it. -/
theorem scanBody_eq_scan (multiline : Bool) (chars : List Char) :
    scanBody multiline chars 0 =
      (Literal.scan multiline chars).toOption.map fun scan =>
        byteSize scan.taken := by
  have hscan :=
    scanBody_eq (body_iff.mpr (Eq.refl (Literal.scan multiline chars).toOption))
      []
  simpa only [List.nil_append, byteSize_nil, Nat.zero_add] using hscan

theorem scanCode_eq_scan (chars : List Char) :
    scanCode 0 chars 0 =
      (Literal.scanCode chars).toOption.map fun scan =>
        (byteSize scan.taken, scan.closed) := by
  have hscan :=
    scanCode_eq (code_iff.mpr (Eq.refl (scanned [.code 0] chars))) []
  simp only [List.nil_append, byteSize_nil, Nat.zero_add] at hscan
  exact hscan

end Token.Bytewise

end PklAnalysis
