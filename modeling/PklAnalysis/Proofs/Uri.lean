import PklAnalysis.Uri

/-!
References in modules whose uris have an authority. A reference is followed
segment by segment from the directory of the module. It never leaves the
authority, and following one reference after another is following both at once.
-/

namespace PklAnalysis

namespace Text

theorem splitAt_eq_splitOn (c : Char) (chars : List Char) :
    splitAt (· = c) chars = chars.splitOn c := by
  induction chars with
  | nil => rfl
  | cons d rest ih =>
      rw [splitAt, List.splitOn_cons_eq_if_modifyHead, ih]
      cases hpieces : rest.splitOn c with
      | nil => exact absurd hpieces (List.splitOn_ne_nil c rest)
      | cons piece pieces => by_cases hd : d = c <;> simp [hd]

theorem splitOn_cons_self (c : Char) (chars : List Char) :
    (c :: chars).splitOn c = [] :: chars.splitOn c := by
  rw [List.splitOn_cons_eq_if_modifyHead, if_pos (beq_self_eq_true c)]

theorem notMem_of_mem_splitOn {c : Char} {chars piece : List Char}
    (hpiece : piece ∈ chars.splitOn c) :
    c ∉ piece := by
  induction chars generalizing piece with
  | nil =>
      rw [List.splitOn_nil, List.mem_singleton] at hpiece
      rw [hpiece]
      exact List.not_mem_nil
  | cons d rest ih =>
      rw [List.splitOn_cons_eq_if_modifyHead] at hpiece
      by_cases hd : d = c
      case pos =>
          rw [if_pos (beq_iff_eq.mpr hd), List.mem_cons] at hpiece
          rcases hpiece with rfl | hpiece
          · exact List.not_mem_nil
          · exact ih hpiece
      case neg =>
          rw [if_neg (mt beq_iff_eq.mp hd)] at hpiece
          cases hpieces : rest.splitOn c with
          | nil => exact absurd hpieces (List.splitOn_ne_nil c rest)
          | cons first pieces =>
              rw [hpieces] at hpiece ih
              rcases List.mem_cons.mp hpiece with rfl | hpiece
              · rw [List.mem_cons, not_or]
                exact ⟨Ne.symm hd, ih List.mem_cons_self⟩
              · exact ih (List.mem_cons_of_mem first hpiece)

end Text

namespace Uri

theorem breakAt_append {stops : Char → Bool} {before : List Char} {c : Char}
    (hbefore : ∀ d ∈ before, stops d = false) (hc : stops c = true)
    (after : List Char) :
    breakAt stops (before ++ c :: after) = (before, c :: after) := by
  have hgoes : ∀ d ∈ before, (!stops d) = true :=
    fun d hd => by rw [hbefore d hd]; rfl
  rw [breakAt, List.takeWhile_append_of_pos hgoes,
    List.dropWhile_append_of_pos hgoes]
  simp [hc]

theorem ne_of_notMem {c : Char} {chars : List Char} (hc : c ∉ chars) :
    ∀ d ∈ chars, decide (d = c) = false :=
  fun _ hd => decide_eq_false fun hsame => hc (hsame ▸ hd)

theorem hasScheme_of_colon {before : List Char} (hbefore : ':' ∉ before)
    (after : List Char) :
    hasScheme (before ++ ':' :: after) =
      (decide (1 < before.length) && before.all isSchemeChar) := by
  rw [hasScheme, breakAt_append (ne_of_notMem hbefore) (decide_eq_true rfl)]
  rfl

theorem hasScheme_of_no_colon {uri : List Char} (hcolon : ':' ∉ uri) :
    hasScheme uri = false := by
  have hrest : uri.dropWhile (fun c => !decide (c = ':')) = [] := by
    have hgoes : ∀ c ∈ uri, (!decide (c = ':')) = true := fun c hc => by
      rw [ne_of_notMem hcolon c hc]
      rfl
    rw [← List.append_nil uri, List.dropWhile_append_of_pos hgoes,
      List.dropWhile_nil]
  rw [hasScheme, breakAt, hrest]
  rfl

theorem hasScheme_append_slash {directory : List Char}
    (hscheme : hasScheme directory = false) (rest : List Char) :
    hasScheme (directory ++ '/' :: rest) = false := by
  by_cases hcolon : ':' ∈ directory
  case pos =>
      obtain ⟨before, after, rfl, hbefore⟩ := List.eq_append_cons_of_mem hcolon
      rw [List.append_assoc, List.cons_append, hasScheme_of_colon hbefore]
      rwa [hasScheme_of_colon hbefore] at hscheme
  case neg =>
      by_cases hrest : ':' ∈ rest
      case pos =>
          obtain ⟨before, after, rfl, hbefore⟩ :=
            List.eq_append_cons_of_mem hrest
          have hnone : ':' ∉ directory ++ '/' :: before := by
            simp [hcolon, hbefore]
          have hslash : (directory ++ '/' :: before).all isSchemeChar =
              false := by
            rw [List.all_append, List.all_cons, Bool.and_left_comm]
            rfl
          rw [← List.cons_append, ← List.append_assoc, hasScheme_of_colon hnone,
            hslash, Bool.and_false]
      case neg => exact hasScheme_of_no_colon (by simp [hcolon, hrest])

/-- What a uri `scheme://authority/path` starts with. -/
structure Origin where
  scheme : String
  authority : String
  colon_notMem : ':' ∉ scheme.toList
  slash_notMem : '/' ∉ authority.toList

namespace Origin

def chars (origin : Origin) : List Char :=
  origin.scheme.toList ++ [':', '/', '/'] ++ origin.authority.toList

def uri (origin : Origin) (path : String) : String :=
  origin.scheme ++ "://" ++ origin.authority ++ "/" ++ path

theorem toList_uri (origin : Origin) (path : String) :
    (origin.uri path).toList = origin.chars ++ '/' :: path.toList := by
  simp [uri, chars]

end Origin

theorem splitAtAuthority?_append {scheme : List Char} (hscheme : ':' ∉ scheme)
    (rest : List Char) :
    splitAtAuthority? (scheme ++ ':' :: '/' :: '/' :: rest) =
      some (scheme ++ [':', '/', '/'], rest) := by
  induction scheme with
  | nil => rfl
  | cons c scheme ih =>
      rw [List.mem_cons, not_or] at hscheme
      have hstart :
          ¬[':', '/',
            '/'].isPrefixOf (c :: (scheme ++ ':' :: '/' :: '/' :: rest)) =
              true := by
        rw [List.isPrefixOf, beq_false_of_ne hscheme.1]
        exact Bool.false_ne_true
      rw [List.cons_append, splitAtAuthority?, if_neg hstart, ih hscheme.2]
      rfl

theorem split_origin (origin : Origin) (path : List Char) :
    split (origin.chars ++ '/' :: path) = (origin.chars, '/' :: path) := by
  have hchars : origin.chars ++ '/' :: path = origin.scheme.toList ++
      ':' :: '/' :: '/' :: (origin.authority.toList ++ '/' :: path) := by
    simp [Origin.chars]
  rw [hchars, split, splitAtAuthority?_append origin.colon_notMem]
  simp only [breakAt_append (ne_of_notMem origin.slash_notMem)
      (decide_eq_true rfl)]
  rfl

def IsDots (segment : List Char) : Prop :=
  segment = ['.'] ∨ segment = ['.', '.']

instance (segment : List Char) : Decidable (IsDots segment) :=
  inferInstanceAs (Decidable (_ ∨ _))

/-- Every segment of the path is a name, or empty. -/
def Normal (path : List Char) : Prop :=
  ∀ segment ∈ path.splitOn '/', ¬IsDots segment

instance (path : List Char) : Decidable (Normal path) :=
  inferInstanceAs (Decidable (∀ segment ∈ path.splitOn '/', ¬IsDots segment))

theorem mem_of_mem_step {segments : List (List Char)}
    {segment other : List Char} (hother : other ∈ step segments segment) :
    other ∈ segments ∨ other = segment ∧ ¬IsDots segment := by
  rw [step] at hother
  split at hother
  case isTrue => exact .inl hother
  case isFalse hdot =>
      split at hother
      case isTrue =>
          split at hother
          · exact .inl (List.dropLast_subset segments hother)
          · exact .inl hother
      case isFalse hdots =>
          split at hother
          case isTrue => exact .inl hother
          case isFalse =>
              refine (List.mem_append.mp hother).imp_right fun hlast => ?_
              exact ⟨List.mem_singleton.mp hlast, not_or.mpr ⟨hdot, hdots⟩⟩

theorem mem_of_mem_foldl_step {reference segments : List (List Char)}
    {other : List Char} (hother : other ∈ reference.foldl step segments) :
    other ∈ segments ∨ other ∈ reference ∧ ¬IsDots other := by
  induction reference generalizing segments with
  | nil => exact .inl hother
  | cons segment rest ih =>
      rcases ih hother with hbefore | ⟨hrest, hnames⟩
      · refine (mem_of_mem_step hbefore).imp_right fun ⟨hsame, hnames⟩ => ?_
        exact ⟨hsame ▸ List.mem_cons_self, hsame ▸ hnames⟩
      · exact .inr ⟨List.mem_cons_of_mem segment hrest, hnames⟩

theorem exists_step (segments : List (List Char)) (segment : List Char) :
    ∃ below, step ([] :: segments) segment = [] :: below := by
  rw [step]
  split
  case isTrue => exact ⟨segments, rfl⟩
  case isFalse =>
      split
      case isTrue =>
          split
          case isTrue hdeep =>
              cases segments with
              | nil => exact absurd hdeep (by decide)
              | cons first rest => exact ⟨(first :: rest).dropLast, rfl⟩
          case isFalse => exact ⟨segments, rfl⟩
      case isFalse =>
          split
          case isTrue => exact ⟨segments, rfl⟩
          case isFalse => exact ⟨segments ++ [segment], rfl⟩

theorem exists_foldl_step (reference segments : List (List Char)) :
    ∃ below, reference.foldl step ([] :: segments) = [] :: below := by
  induction reference generalizing segments with
  | nil => exact ⟨segments, rfl⟩
  | cons segment rest ih =>
      obtain ⟨below, hbelow⟩ := exists_step segments segment
      rw [List.foldl_cons, hbelow]
      exact ih below

/-- The segments that a reference leads to, from the path of a module without
its first slash. -/
def target (path reference : List Char) : List (List Char) :=
  (reference.splitOn '/').foldl step
    (if reference.head? = some '/' then []
      else [] :: (path.splitOn '/').dropLast)

theorem exists_target (path reference : List Char) :
    ∃ below, target path reference = [] :: below ∧
      ∀ segment ∈ below, segment = [] ∨ segment ∈ path.splitOn '/' ∨
        segment ∈ reference.splitOn '/' ∧ ¬IsDots segment := by
  have hmem : ∀ segment ∈ target path reference,
      segment = [] ∨ segment ∈ path.splitOn '/' ∨
      segment ∈ reference.splitOn '/' ∧ ¬IsDots segment := by
    intro segment hsegment
    rcases mem_of_mem_foldl_step hsegment with hstart | hnames
    · split at hstart
      case isTrue => exact absurd hstart List.not_mem_nil
      case isFalse =>
          refine (List.mem_cons.mp hstart).imp_right fun hfront => .inl ?_
          exact List.dropLast_subset _ hfront
    · exact .inr (.inr hnames)
  have hroot : ∃ below, target path reference = [] :: below := by
    rw [target]
    split
    case isTrue habsolute =>
        obtain ⟨rest, rfl⟩ := List.head?_eq_some_iff.mp habsolute
        rw [Text.splitOn_cons_self]
        exact exists_foldl_step (rest.splitOn '/') []
    case isFalse => exact exists_foldl_step _ _
  obtain ⟨below, hbelow⟩ := hroot
  exact ⟨below, hbelow, fun segment hsegment =>
    hmem segment (hbelow ▸ List.mem_cons_of_mem [] hsegment)⟩

theorem joinSegments_root (below : List (List Char)) :
    (if (joinSegments ([] :: below)).head? != some '/' then '/' ::
      joinSegments ([] :: below)
      else joinSegments ([] :: below)) = '/' :: joinSegments below := by
  cases below with
  | nil => rfl
  | cons segment rest =>
      rw [joinSegments, List.intercalate_cons_cons]
      rfl

theorem resolve_origin (origin : Origin) {path reference : List Char}
    {below : List (List Char)} (hscheme : hasScheme reference = false)
    (htarget : target path reference = [] :: below) :
    resolve (origin.chars ++ '/' :: path) reference =
      origin.chars ++ '/' :: joinSegments below := by
  have hdirectory : (('/' :: path).splitOn '/').dropLast =
      [] :: (path.splitOn '/').dropLast := by
    rw [Text.splitOn_cons_self,
      List.dropLast_cons_of_ne_nil (List.splitOn_ne_nil '/' path)]
  rw [target] at htarget
  rw [resolve, hscheme, if_neg Bool.false_ne_true, split_origin]
  simp only [Text.splitAt_eq_splitOn, hdirectory, htarget, List.head?_cons,
    decide_true, Bool.and_true, joinSegments_root]

theorem join_origin (origin : Origin) {path reference : String}
    {below : List (List Char)} (hscheme : hasScheme reference.toList = false)
    (htarget : target path.toList reference.toList = [] :: below) :
    join (origin.uri path) reference =
      origin.uri (String.ofList (joinSegments below)) := by
  rw [join, origin.toList_uri, resolve_origin origin hscheme htarget,
    ← String.toList_inj, origin.toList_uri, String.toList_ofList,
    String.toList_ofList]

theorem splitOn_joinSegments {segments : List (List Char)} (hne : segments ≠ [])
    (hslash : ∀ segment ∈ segments, '/' ∉ segment) :
    (joinSegments segments).splitOn '/' = segments :=
  List.splitOn_intercalate '/' hslash hne

theorem slash_notMem_target {path reference : List Char}
    {below : List (List Char)}
    (hmem : ∀ segment ∈ below, segment = [] ∨ segment ∈ path.splitOn '/' ∨
      segment ∈ reference.splitOn '/' ∧ ¬IsDots segment) :
    ∀ segment ∈ below, '/' ∉ segment := by
  intro segment hsegment
  rcases hmem segment hsegment with rfl | hpath | ⟨hreference, -⟩
  · exact List.not_mem_nil
  · exact Text.notMem_of_mem_splitOn hpath
  · exact Text.notMem_of_mem_splitOn hreference

theorem normal_joinSegments {segments : List (List Char)}
    (hslash : ∀ segment ∈ segments, '/' ∉ segment)
    (hnames : ∀ segment ∈ segments, ¬IsDots segment) :
    Normal (joinSegments segments) := by
  cases segments with
  | nil => exact List.forall_mem_singleton.mpr (by decide)
  | cons segment rest =>
      rw [Normal, splitOn_joinSegments (List.cons_ne_nil segment rest) hslash]
      exact hnames

def IsRelative (text : String) : Prop :=
  hasScheme text.toList = false ∧ text.toList.head? ≠ some '/'

structure IsName (text : String) : Prop where
  ne : text ≠ ""
  slash_notMem : '/' ∉ text.toList
  not_isDots : ¬IsDots text.toList

theorem step_name {segments : List (List Char)} {file : String}
    (hfile : IsName file) :
    step segments file.toList = segments ++ [file.toList] := by
  have hne : file.toList ≠ [] := by simpa using hfile.ne
  rw [step, if_neg fun hdot => hfile.not_isDots (.inl hdot),
    if_neg fun hdots => hfile.not_isDots (.inr hdots), if_neg (by simp [hne])]

theorem target_append {path directory rest : List Char} (hne : directory ≠ []) :
    target path (directory ++ '/' :: rest) =
      (rest.splitOn '/').foldl step (target path directory) := by
  have hhead : (directory ++ '/' :: rest).head? = directory.head? := by
    rw [List.head?_append, Option.or_of_isSome (List.isSome_head?.mpr hne)]
  rw [target, target, hhead, List.splitOn_append_cons_self, List.foldl_append]

/-- A reference without a scheme keeps scheme and authority of the module, and
leads to a path without segments of dots, however many of them the reference
has. A relative reference in a file of a directory leads where it leads after
the name of the directory. -/
theorem join_uri (origin : Origin) (path : String) :
    (Normal path.toList → ∀ reference : String,
      hasScheme reference.toList = false →
      ∃ path', join (origin.uri path) reference = origin.uri path' ∧
        Normal path'.toList) ∧
    ∀ directory file reference : String, hasScheme directory.toList = false →
      directory ≠ "" → IsName file → IsRelative reference →
        join (join (origin.uri path) (directory ++ "/" ++ file)) reference =
          join (origin.uri path) (directory ++ "/" ++ reference) := by
  refine ⟨fun hnormal reference hscheme => ?_, ?_⟩
  · obtain ⟨below, htarget, hmem⟩ := exists_target path.toList reference.toList
    refine ⟨_, join_origin origin hscheme htarget, ?_⟩
    rw [String.toList_ofList]
    refine normal_joinSegments (slash_notMem_target hmem)
      fun segment hsegment => ?_
    rcases hmem segment hsegment with rfl | hpath | ⟨-, hnames⟩
    · decide
    · exact hnormal segment hpath
    · exact hnames
  · intro directory file reference hscheme hne hfile ⟨hscheme', hhead⟩
    have hne' : directory.toList ≠ [] := by simpa using hne
    have htoList : ∀ text : String,
        (directory ++ "/" ++ text).toList =
          directory.toList ++ '/' :: text.toList := by simp
    have hinside : ∀ text : String,
        hasScheme (directory ++ "/" ++ text).toList = false := fun text => by
      rw [htoList, hasScheme_append_slash hscheme]
    obtain ⟨below, htarget, hmem⟩ := exists_target path.toList directory.toList
    -- The path of the file has the segments of the directory, which the
    -- reference goes on from.
    have hfile' : target path.toList (directory ++ "/" ++ file).toList =
        [] :: (below ++ [file.toList]) := by
      rw [htoList, target_append hne', htarget,
        List.splitOn_eq_singleton hfile.slash_notMem, List.foldl_cons,
        step_name hfile]
      rfl
    have hslash : ∀ segment ∈ below ++ [file.toList], '/' ∉ segment :=
      List.forall_mem_append.mpr
        ⟨slash_notMem_target hmem,
          List.forall_mem_singleton.mpr hfile.slash_notMem⟩
    have hsame :
        target (joinSegments (below ++ [file.toList])) reference.toList =
        target path.toList (directory ++ "/" ++ reference).toList := by
      rw [htoList, target_append hne', htarget, target, if_neg hhead,
        splitOn_joinSegments (by simp) hslash, List.dropLast_concat]
    obtain ⟨final, hfinal, -⟩ :=
      exists_target path.toList (directory ++ "/" ++ reference).toList
    rw [join_origin origin (hinside file) hfile',
      join_origin origin (hinside reference) hfinal]
    exact join_origin origin hscheme'
      (by rw [String.toList_ofList, hsame, hfinal])

/-- More steps up than there are directories, and steps up from a directory that
is itself above. -/
theorem join_uri_upwards :
    let origin : Origin := ⟨"https", "example.com:80", by decide, by decide⟩
    let path := "a//b/c.pkl"
    Normal path.toList ∧ hasScheme "../../../../../d.pkl".toList = false ∧
      (∃ path',
        join (origin.uri path) "../../../../../d.pkl" = origin.uri path' ∧
        Normal path'.toList) ∧
      hasScheme "../x".toList = false ∧ IsName "y.pkl" ∧
        IsRelative ".././z.pkl" ∧
      join (join (origin.uri path) ("../x" ++ "/" ++ "y.pkl")) ".././z.pkl" =
        join (origin.uri path) ("../x" ++ "/" ++ ".././z.pkl") := by
  intro origin path
  have hnormal : Normal path.toList := by decide +kernel
  have hup : hasScheme "../../../../../d.pkl".toList = false := by
    decide +kernel
  have hdirectory : hasScheme "../x".toList = false := by decide +kernel
  have hname : IsName "y.pkl" := ⟨by decide, by decide, by decide⟩
  have hrelative : IsRelative ".././z.pkl" := ⟨by decide +kernel, by decide⟩
  obtain ⟨hcontained, hcomposed⟩ := join_uri origin path
  exact ⟨hnormal, hup, hcontained hnormal _ hup, hdirectory, hname, hrelative,
    hcomposed _ _ _ hdirectory (by decide) hname hrelative⟩

end Uri

end PklAnalysis
