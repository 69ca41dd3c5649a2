import PklAnalysis.Token.Pattern

/-!
Every pattern takes at least one character where it matches, and so does an
error.
-/

namespace PklAnalysis.Token

namespace Match

def Positive (pattern : Match) : Prop :=
  ∀ chars, pattern chars ≠ some 0

theorem positive_exactly {text : String} (htext : text ≠ "") :
    Positive (exactly text) := by
  intro chars hzero
  rw [exactly] at hzero
  split at hzero
  case isTrue =>
      exact htext (String.length_eq_zero_iff.mp (Option.some.inj hzero))
  case isFalse => cases hzero

theorem positive_many (allowed : Char → Bool) : Positive (many allowed) := by
  intro chars hzero
  rw [many] at hzero
  split at hzero
  case h_1 => cases hzero
  case h_2 hcount => exact hcount (Option.some.inj hzero)

theorem positive_one (allowed : Char → Bool) : Positive (one allowed) := by
  intro chars hzero
  rw [one] at hzero
  split at hzero <;> cases hzero

theorem Positive.thenTake {first : Match} (hfirst : Positive first)
    (second : Match) :
    Positive (thenTake first second) := by
  intro chars hzero
  simp only [Match.thenTake, Option.bind_eq_bind, Option.bind_eq_some_iff,
    Option.pure_def, Option.some.injEq] at hzero
  obtain ⟨count, hcount, further, -, hsum⟩ := hzero
  obtain rfl : count = 0 := by omega
  exact hfirst chars hcount

theorem positive_longest {alternatives : List Match}
    (halternatives : ∀ alternative ∈ alternatives, Positive alternative) :
    Positive (longest alternatives) := by
  intro chars
  refine List.foldlRecOn (motive := fun best => best ≠ some 0) alternatives _
    nofun ?_
  intro best hbest alternative hmember
  have halternative := halternatives alternative hmember chars
  grind

end Match

open Match

theorem spelling?_ne_empty : ∀ kind ∈ Kind.all, kind.spelling? ≠ some "" := by
  decide

theorem positive_spelled {text : String} (htext : text ≠ "") :
    Positive (spelled text) := by
  intro chars hzero
  simp only [spelled, Option.bind_eq_bind, Option.bind_eq_some_iff] at hzero
  obtain ⟨count, hcount, hgrows⟩ := hzero
  split at hgrows
  case isTrue => cases hgrows
  case isFalse =>
      obtain rfl : count = 0 := Option.some.inj hgrows
      exact positive_exactly htext chars hcount

theorem positive_digits : Positive digits :=
  (positive_one _).thenTake _

theorem positive_based (base : Char) (isDigit : Char → Bool) :
    Positive (based base isDigit) :=
  (positive_one _).thenTake _

theorem positive_intNumber : Positive intNumber := by
  refine positive_longest fun alternative halternative => ?_
  simp only [List.mem_cons, List.not_mem_nil, or_false] at halternative
  rcases halternative with rfl | rfl | rfl | rfl
  · exact positive_based _ _
  · exact positive_based _ _
  · exact positive_based _ _
  · exact positive_digits

theorem positive_floatNumber : Positive floatNumber := by
  refine positive_longest fun alternative halternative => ?_
  simp only [List.mem_cons, List.not_mem_nil, or_false] at halternative
  rcases halternative with rfl | rfl | rfl
  · exact positive_digits.thenTake _
  · exact positive_digits.thenTake _
  · exact (positive_one _).thenTake _

theorem positive_patterns {kind : Kind} {pattern : Match}
    (hpattern : (kind, pattern) ∈ patterns) :
    Positive pattern := by
  rcases List.mem_append.mp hpattern with hspelled | hother
  · obtain ⟨kind', hkind, hentry⟩ := List.mem_filterMap.mp hspelled
    obtain ⟨text, htext, heq⟩ := Option.map_eq_some_iff.mp hentry
    cases heq
    exact positive_spelled fun hempty =>
      spelling?_ne_empty _ hkind (hempty ▸ htext)
  · simp only [List.mem_cons, List.not_mem_nil, or_false, Prod.mk.injEq]
      at hother
    rcases hother with
      ⟨-, rfl⟩ | ⟨-, rfl⟩ | ⟨-, rfl⟩ | ⟨-, rfl⟩ | ⟨-, rfl⟩ | ⟨-,
        rfl⟩ | ⟨-, rfl⟩ |
      ⟨-, rfl⟩
    · exact positive_many _
    · exact (positive_exactly (by decide)).thenTake _
    · exact (positive_exactly (by decide)).thenTake _
    · exact (positive_one _).thenTake _
    · exact (positive_one _).thenTake _
    · exact positive_intNumber
    · exact positive_floatNumber
    · exact (positive_exactly (by decide)).thenTake _

theorem longestMatch_ne_zero (chars : List Char) :
    ∀ kind, longestMatch chars ≠ some (kind, 0) := by
  refine List.foldlRecOn (motive := fun best => ∀ kind, best ≠ some (kind, 0))
    patterns _ ?_ ?_
  · intro kind
    exact nofun
  · intro best hbest entry hentry kind
    have hpositive := positive_patterns hentry chars
    have hkind := hbest kind
    grind

theorem first_pos (chars : List Char) : 0 < (first chars).2 := by
  have hmatch := longestMatch_ne_zero chars
  unfold first
  generalize longestMatch chars = found at hmatch ⊢
  split
  case h_1 =>
      rw [errorLength.eq_def]
      split
      · exact Nat.succ_pos _
      · exact Nat.one_pos
  case h_2 count =>
      refine Nat.pos_of_ne_zero fun hzero => hmatch .lineComment ?_
      exact congrArg (fun count => some (Kind.lineComment, count)) hzero
  case h_3 found hcomment =>
      obtain ⟨kind, count⟩ := found
      refine Nat.pos_of_ne_zero fun hzero => hmatch kind ?_
      exact congrArg (fun count => some (kind, count)) hzero

end PklAnalysis.Token
