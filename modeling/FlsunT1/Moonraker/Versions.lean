/-
  Moonraker/Versions.lean --- parsing and comparison of versions (moonraker/utils/versions.py).

  A version is compared by its release numbers, then by its part for pre- and post-releases, and
  then by its part for development releases.  Five of the six operators agree with that order;
  `__le__` compares the parts without regard for the ones before them.
-/
import Mathlib.Data.List.Lex
import Mathlib.Data.Prod.Lex
import FlsunT1.Library.Regex

set_option autoImplicit false

namespace FlsunT1.Moonraker

open Library

/-! ## The patterns -/

/-- The groups of both patterns. -/
inductive VersionGroup where
  | epoch | release | pre | preL | preN | post | postN1 | postL | postN2 | dev | devL | devN
  | localPart | tag | hash | dirty | inferred
  deriving DecidableEq

namespace VersionPattern

open Regex

/-- `[-_\.]` -/
def separator : Regex VersionGroup := .char fun c => c == '-' || c == '_' || c == '.'

/-- `[a-z0-9]`, under `re.IGNORECASE` -/
def alphanumeric : Regex VersionGroup :=
  .char fun c => isDigit c || ('a' ≤ foldCase c && foldCase c ≤ 'z')

/-- `[a-fA-F0-9]`, under `re.IGNORECASE` -/
def hexDigit : Regex VersionGroup :=
  .char fun c => isDigit c || ('a' ≤ foldCase c && foldCase c ≤ 'f')

/-- `[0-9]+(?:\.[0-9]+)*` -/
def releaseNumbers : Regex VersionGroup :=
  .seq digits (.star (.seq (.char fun c => c == '.') digits))

/-- The group `pre_l`. -/
def preLabel : Regex VersionGroup :=
  .group .preL (alts (word "a".toList) [word "b".toList, word "c".toList, word "rc".toList,
    word "alpha".toList, word "beta".toList, word "pre".toList, word "preview".toList])

/-- What the group `pre` encloses. -/
def preRelease : Regex VersionGroup :=
  seqs [opt separator, preLabel, opt separator, opt (.group .preN digits)]

/-- What the group `post` encloses. -/
def postRelease : Regex VersionGroup :=
  .alt (.seq (word "-".toList) (.group .postN1 digits))
    (seqs [opt separator,
      .group .postL (alts (word "post".toList) [word "rev".toList, word "r".toList]),
      opt separator, opt (.group .postN2 digits)])

/-- What the group `dev` encloses. -/
def devRelease : Regex VersionGroup :=
  seqs [opt separator, .group .devL (word "dev".toList), opt separator,
    opt (.group .devN digits)]

/-- `VERSION_PATTERN` -/
def version : Regex VersionGroup :=
  seqs [opt (word "v".toList),
    opt (.seq (.group .epoch digits) (word "!".toList)),
    .group .release releaseNumbers,
    opt (.group .pre preRelease),
    opt (.group .post postRelease),
    opt (.group .dev devRelease),
    opt (.seq (word "+".toList) (.group .localPart
      (.seq (plus alphanumeric) (.star (.seq separator (plus alphanumeric))))))]

/-- `GIT_VERSION_PATTERN` -/
def gitVersion : Regex VersionGroup :=
  seqs [.group .tag (seqs [opt (word "v".toList), .group .release releaseNumbers,
      opt (.group .pre preRelease)]),
    opt (.seq (.seq (word "-".toList) (.group .devN digits))
      (opt (.seq (word "-g".toList) (.group .hash (plus hexDigit))))),
    opt (.group .dirty (word "-dirty".toList)),
    opt (.group .inferred (.seq (word "-".toList)
      (alts (word "inferred".toList) [word "shallow".toList])))]

end VersionPattern

/-! ## Versions -/

/-- The two classes of versions. -/
inductive VersionClass where
  | pyVersion
  | gitVersion
  deriving DecidableEq

/-- What the functions on versions raise. -/
inductive VersionError where
  /-- `int` is given something other than digits -/
  | invalidLiteral (part : Text)
  /-- `None[0]` -/
  | notSubscriptable
  /-- "Invalid type for comparison" -/
  | invalidType
  /-- "Version `orig` is not a valid version string for type `cls`" -/
  | notValid (orig : Text) (cls : VersionClass)
  deriving DecidableEq

/-- What comparisons read of a `BaseVersion`. -/
structure BaseVersion where
  cls : VersionClass
  orig : Text
  releaseTup : List ℕ
  extraTup : List ℕ
  hasDevPart : Bool
  devCount : ℕ
  validVersion : Bool
  deriving DecidableEq

/-- `BaseVersion.__init__` -/
def BaseVersion.init (cls : VersionClass) (version : Text) : BaseVersion where
  cls := cls
  orig := Text.strip version
  releaseTup := []
  extraTup := []
  hasDevPart := false
  devCount := 0
  validVersion := false

/-- `int(part)`, of a text of digits -/
def pyInt (part : Text) : Except VersionError ℕ :=
  if part ≠ [] ∧ ∀ c ∈ part, Regex.isDigit c = true then
    .ok (part.foldl (fun n c => 10 * n + (c.toNat - '0'.toNat)) 0)
  else .error (.invalidLiteral part)

/-- `int(part or 0)` -/
def pyIntOr0 (part : Option Text) : Except VersionError ℕ :=
  match part with
  | none => .ok 0
  | some [] => .ok 0
  | some (c :: t) => pyInt (c :: t)

/-- `a or b`, of two groups -/
def groupOr (a b : Option Text) : Option Text :=
  match a with
  | some (c :: t) => some (c :: t)
  | _ => b

/-- `pre_conv.get(lbl, 0)`, of the first character of a label in lower case -/
def preConv (lbl : Char) : ℕ :=
  match lbl with
  | 'a' => 1
  | 'b' => 2
  | 'c' => 3
  | 'r' => 3
  | 'p' => 3
  | _ => 0

/-- `(0, pre_conv.get(lbl, 0), int(version_info["pre_n"] or 0))` -/
def preTup (groups : Regex.Groups VersionGroup) : Except VersionError (List ℕ) :=
  match groups.lookup .preL with
  | none => .error .notSubscriptable
  | some [] => .error .notSubscriptable
  | some (c :: _) => do
      let preN ← pyIntOr0 (groups.lookup .preN)
      return [0, preConv c.toLower, preN]

/-- `int((version_info["post_n1"] or version_info["post_n2"]) or 0)` -/
def postNum (groups : Regex.Groups VersionGroup) : Except VersionError ℕ :=
  pyIntOr0 (groupOr (groups.lookup .postN1) (groups.lookup .postN2))

/-- The value of `_extra_tup` that `PyVersion.__init__` leaves. -/
def PyVersion.extraTup (groups : Regex.Groups VersionGroup) : Except VersionError (List ℕ) :=
  if (groups.lookup .pre).isSome then do
    let extra ← preTup groups
    if (groups.lookup .post).isSome then
      -- a "post" pre-release: the tuple gets a fourth component
      let num ← postNum groups
      return extra ++ [num]
    else return extra
  else if (groups.lookup .post).isSome then do
    let num ← postNum groups
    return [2, num, 0]
  else return [1, 0, 0]

/-- `PyVersion.__init__` -/
def PyVersion.init (version : Text) : Except VersionError BaseVersion :=
  let self := BaseVersion.init .pyVersion version
  match VersionPattern.version.matchLine version with
  | none => .ok self
  | some groups =>
    match groups.lookup .release with
    | none => .ok self
    | some release => do
        let releaseTup ← (release.splitOn '.').mapM pyInt
        let extraTup ← PyVersion.extraTup groups
        let devCount ← pyIntOr0 (groups.lookup .devN)
        return { self with
          validVersion := true
          releaseTup := releaseTup
          extraTup := extraTup
          hasDevPart := (groups.lookup .dev).isSome
          devCount := devCount }

/-- `GitVersion.__init__`; a version that only matches the fallback is not valid -/
def GitVersion.init (version : Text) : Except VersionError BaseVersion :=
  let self := BaseVersion.init .gitVersion version
  match VersionPattern.gitVersion.matchLine version with
  | none => .ok self
  | some groups =>
    match groups.lookup .release with
    | none => .ok self
    | some release => do
        let releaseTup ← (release.splitOn '.').mapM pyInt
        let extraTup ← if (groups.lookup .pre).isSome then preTup groups else .ok [1, 0, 0]
        let devCount ← pyIntOr0 (groups.lookup .devN)
        -- all git versions are considered to have a dev part
        return { self with
          validVersion := true
          releaseTup := releaseTup
          extraTup := extraTup
          hasDevPart := true
          devCount := devCount }

/-! ## Parsing never fails -/

theorem exists_pyInt {part : Text} (h : part ≠ [] ∧ ∀ c ∈ part, Regex.isDigit c = true) :
    ∃ n, pyInt part = .ok n := by
  unfold pyInt
  rw [if_pos h]
  exact ⟨_, rfl⟩

theorem exists_pyIntOr0 {part : Option Text}
    (h : ∀ t, part = some t → ∀ c ∈ t, Regex.isDigit c = true) : ∃ n, pyIntOr0 part = .ok n := by
  unfold pyIntOr0
  cases part with
  | none => exact ⟨0, rfl⟩
  | some t =>
    cases t with
    | nil => exact ⟨0, rfl⟩
    | cons c t => exact exists_pyInt ⟨List.cons_ne_nil _ _, h _ rfl⟩

theorem exists_mapM_pyInt {parts : List Text}
    (h : ∀ part ∈ parts, part ≠ [] ∧ ∀ c ∈ part, Regex.isDigit c = true) :
    ∃ ns, parts.mapM pyInt = .ok ns := by
  induction parts with
  | nil => exact ⟨[], rfl⟩
  | cons part parts ih =>
    obtain ⟨hpart, hparts⟩ := List.forall_mem_cons.mp h
    obtain ⟨n, hn⟩ := exists_pyInt hpart
    obtain ⟨ns, hns⟩ := ih hparts
    refine ⟨n :: ns, ?_⟩
    rw [List.mapM_cons, hn, hns]
    rfl

namespace VersionPattern

open Regex

/-- The numbers of a release, with what the repetition in it has matched. -/
theorem digits_of_mem_splitOn {r : Regex VersionGroup} {d v : Text} {g : Groups VersionGroup}
    (h : r.Matches v g) (hr : r = .star (.seq (.char fun c => c == '.') digits))
    (hd : d ≠ [] ∧ ∀ c ∈ d, isDigit c = true) :
    ∀ part ∈ (d ++ v).splitOn '.', part ≠ [] ∧ ∀ c ∈ part, isDigit c = true := by
  have hsplit : ∀ d : Text, (∀ c ∈ d, isDigit c = true) → d.splitOn '.' = [d] := by
    intro d hd
    refine List.splitOn_eq_singleton fun hmem => ?_
    have hdot := hd _ hmem
    cases hdot
  induction h generalizing d with
  | eps | char | seq | left | right | group => cases hr
  | nil =>
    rw [List.append_nil, hsplit d hd.2]
    exact List.forall_mem_singleton.mpr hd
  | cons hmatch hs ihr ihs =>
    obtain rfl := Regex.star.inj hr
    cases hmatch with
    | seq hchar hdigits =>
      cases hchar with
      | char hc =>
        obtain rfl := beq_iff_eq.mp hc
        rw [List.singleton_append, List.cons_append, List.splitOn_append_cons_self, hsplit d hd.2]
        exact List.forall_mem_cons.mpr ⟨hd, ihs rfl hdigits.digits⟩

theorem digits_of_release {t : Text} {g : Groups VersionGroup} (h : releaseNumbers.Matches t g) :
    ∀ part ∈ t.splitOn '.', part ≠ [] ∧ ∀ c ∈ part, isDigit c = true := by
  cases h with
  | seq hd hs => exact digits_of_mem_splitOn hs rfl hd.digits

theorem exists_label {t : Text} {g : Groups VersionGroup} (h : preRelease.Matches t g) :
    ∃ u, (VersionGroup.preL, u) ∈ g := by
  cases h with
  | seq _ h =>
    cases h with
    | seq hlabel _ =>
      cases hlabel with
      | group _ =>
        exact ⟨_, List.mem_append_left _ (List.mem_append_right _ List.mem_cons_self)⟩

/-- What the groups of a pattern enclose, where `int` and the label are read from them. -/
structure Groomed (r : Regex VersionGroup) : Prop where
  release : ∀ s ∈ r.bodies .release, s = releaseNumbers
  pre : ∀ s ∈ r.bodies .pre, s = preRelease
  preL : ∀ s ∈ r.bodies .preL, s.nullable = false
  numbers : ∀ i ∈ [VersionGroup.preN, .postN1, .postN2, .devN], ∀ s ∈ r.bodies i, s = digits

theorem groomed_version : Groomed version where
  release := List.forall_mem_singleton.mpr rfl
  pre := List.forall_mem_singleton.mpr rfl
  preL := List.forall_mem_singleton.mpr rfl
  numbers := by
    refine List.forall_mem_cons.mpr ⟨?_, List.forall_mem_cons.mpr ⟨?_,
      List.forall_mem_cons.mpr ⟨?_, List.forall_mem_singleton.mpr ?_⟩⟩⟩
    all_goals exact List.forall_mem_singleton.mpr rfl

theorem groomed_gitVersion : Groomed gitVersion where
  release := List.forall_mem_singleton.mpr rfl
  pre := List.forall_mem_singleton.mpr rfl
  preL := List.forall_mem_singleton.mpr rfl
  numbers := by
    refine List.forall_mem_cons.mpr ⟨?_, List.forall_mem_cons.mpr ⟨?_,
      List.forall_mem_cons.mpr ⟨?_, List.forall_mem_singleton.mpr ?_⟩⟩⟩
    · exact List.forall_mem_singleton.mpr rfl
    · exact List.forall_mem_nil _
    · exact List.forall_mem_nil _
    · exact List.forall_mem_singleton.mpr rfl

variable {r : Regex VersionGroup} {t : Text} {groups : Groups VersionGroup}

theorem Groomed.exists_releaseTup (hr : Groomed r) (h : r.matchLine t = some groups)
    {release : Text} (hrelease : groups.lookup .release = some release) :
    ∃ ns, (release.splitOn '.').mapM pyInt = .ok ns := by
  obtain ⟨s, hs, g, -, hm⟩ := matches_of_matchLine h hrelease
  obtain rfl := hr.release s hs
  exact exists_mapM_pyInt (digits_of_release hm)

theorem Groomed.digits_of_lookup (hr : Groomed r) (h : r.matchLine t = some groups)
    {i : VersionGroup} (hi : i ∈ [VersionGroup.preN, .postN1, .postN2, .devN]) {u : Text}
    (hu : groups.lookup i = some u) : ∀ c ∈ u, isDigit c = true := by
  obtain ⟨s, hs, g, -, hm⟩ := matches_of_matchLine h hu
  obtain rfl := hr.numbers i hi s hs
  exact hm.digits.2

theorem Groomed.exists_preTup (hr : Groomed r) (h : r.matchLine t = some groups)
    (hpre : (groups.lookup .pre).isSome = true) : ∃ extra, preTup groups = .ok extra := by
  obtain ⟨u, hu⟩ := Option.isSome_iff_exists.mp hpre
  obtain ⟨s, hs, g, hg, hm⟩ := matches_of_matchLine h hu
  obtain rfl := hr.pre s hs
  obtain ⟨w, hw⟩ := exists_label hm
  obtain ⟨label, hlabel⟩ := Option.isSome_iff_exists.mp
    (List.lookup_isSome_iff.mpr ⟨_, hg hw, beq_self_eq_true _⟩)
  obtain ⟨n, hn⟩ := exists_pyIntOr0 fun u hu =>
    hr.digits_of_lookup (i := .preN) h List.mem_cons_self hu
  unfold preTup
  rw [hlabel]
  cases label with
  | nil =>
    obtain ⟨s, hs, g, -, hm⟩ := matches_of_matchLine h hlabel
    have hne := hr.preL s hs
    rw [hm.nullable rfl] at hne
    cases hne
  | cons c label =>
    dsimp only
    rw [hn]
    exact ⟨_, rfl⟩

theorem Groomed.exists_postNum (hr : Groomed r) (h : r.matchLine t = some groups) :
    ∃ n, postNum groups = .ok n := by
  refine exists_pyIntOr0 fun u hu => ?_
  unfold groupOr at hu
  split at hu
  · rename_i hn1
    obtain rfl := Option.some.inj hu
    exact hr.digits_of_lookup (i := .postN1) h (by simp) hn1
  · exact hr.digits_of_lookup (i := .postN2) h (by simp) hu

theorem Groomed.exists_devCount (hr : Groomed r) (h : r.matchLine t = some groups) :
    ∃ n, pyIntOr0 (groups.lookup .devN) = .ok n :=
  exists_pyIntOr0 fun _ hu => hr.digits_of_lookup (i := .devN) h (by simp) hu

end VersionPattern

open VersionPattern

/-- Whatever text it is given, `PyVersion` raises nothing. -/
theorem PyVersion.exists_init (version : Text) : ∃ v, PyVersion.init version = .ok v := by
  have hr := groomed_version
  unfold PyVersion.init
  dsimp only
  split
  · exact ⟨_, rfl⟩
  · rename_i groups h
    split
    · exact ⟨_, rfl⟩
    · rename_i release hrelease
      obtain ⟨releaseTup, hreleaseTup⟩ := hr.exists_releaseTup h hrelease
      obtain ⟨devCount, hdevCount⟩ := hr.exists_devCount h
      obtain ⟨num, hnum⟩ := hr.exists_postNum h
      have hextra : ∃ extra, PyVersion.extraTup groups = .ok extra := by
        unfold PyVersion.extraTup
        rw [hnum]
        split
        · rename_i hpre
          obtain ⟨extra, hextra⟩ := hr.exists_preTup h hpre
          rw [hextra]
          by_cases hpost : (groups.lookup .post).isSome = true
          · exact ⟨extra ++ [num], by simp only [if_pos hpost]; rfl⟩
          · exact ⟨extra, by simp only [if_neg hpost]; rfl⟩
        · split
          · exact ⟨_, rfl⟩
          · exact ⟨_, rfl⟩
      obtain ⟨extra, hextra⟩ := hextra
      rw [hreleaseTup, hextra, hdevCount]
      exact ⟨_, rfl⟩

/-- Whatever text it is given, `GitVersion` raises nothing. -/
theorem GitVersion.exists_init (version : Text) : ∃ v, GitVersion.init version = .ok v := by
  have hr := groomed_gitVersion
  unfold GitVersion.init
  dsimp only
  split
  · exact ⟨_, rfl⟩
  · rename_i groups h
    split
    · exact ⟨_, rfl⟩
    · rename_i release hrelease
      obtain ⟨releaseTup, hreleaseTup⟩ := hr.exists_releaseTup h hrelease
      obtain ⟨devCount, hdevCount⟩ := hr.exists_devCount h
      rw [hreleaseTup, hdevCount]
      by_cases hpre : (groups.lookup .pre).isSome = true
      · obtain ⟨extra, hextra⟩ := hr.exists_preTup h hpre
        simp only [if_pos hpre, hextra]
        exact ⟨_, rfl⟩
      · simp only [if_neg hpre]
        exact ⟨_, rfl⟩

/-- Whatever text they are given, the constructors raise nothing. -/
theorem versions_init_ok (version : Text) :
    (∃ v, PyVersion.init version = .ok v) ∧ ∃ v, GitVersion.init version = .ok v :=
  ⟨PyVersion.exists_init version, GitVersion.exists_init version⟩

namespace BaseVersion

/-! ## Operators -/

/-- `_validate` -/
def validate (a b : BaseVersion) : Except VersionError Unit :=
  if a.validVersion = false then .error (.notValid a.orig a.cls)
  else if b.validVersion = false then .error (.notValid b.orig a.cls)
  else .ok ()

/-- What each operator checks before it compares. -/
def checked (a b : BaseVersion) (compare : Bool) : Except VersionError Bool :=
  if b.cls ≠ a.cls then .error .invalidType
  else do
    a.validate b
    return compare

/-- `__eq__` -/
def eq (a b : BaseVersion) : Except VersionError Bool :=
  a.checked b <|
    if a.releaseTup ≠ b.releaseTup then false
    else if a.extraTup ≠ b.extraTup then false
    else if a.hasDevPart ≠ b.hasDevPart then false
    else if a.devCount ≠ b.devCount then false
    else true

/-- `__lt__` -/
def lt (a b : BaseVersion) : Except VersionError Bool :=
  a.checked b <|
    if a.releaseTup ≠ b.releaseTup then a.releaseTup < b.releaseTup
    else if a.extraTup ≠ b.extraTup then a.extraTup < b.extraTup
    else if a.hasDevPart ≠ b.hasDevPart then a.hasDevPart
    else a.devCount < b.devCount

/-- `__le__` -/
def le (a b : BaseVersion) : Except VersionError Bool :=
  a.checked b <|
    if a.releaseTup > b.releaseTup then false
    else if a.extraTup > b.extraTup then false
    else if a.hasDevPart ≠ b.hasDevPart then a.hasDevPart
    else a.devCount ≤ b.devCount

/-- `__ne__` -/
def ne (a b : BaseVersion) : Except VersionError Bool :=
  a.checked b <|
    if a.releaseTup ≠ b.releaseTup then true
    else if a.extraTup ≠ b.extraTup then true
    else if a.hasDevPart ≠ b.hasDevPart then true
    else if a.devCount ≠ b.devCount then true
    else false

/-- `__gt__` -/
def gt (a b : BaseVersion) : Except VersionError Bool :=
  a.checked b <|
    if a.releaseTup ≠ b.releaseTup then a.releaseTup > b.releaseTup
    else if a.extraTup ≠ b.extraTup then a.extraTup > b.extraTup
    else if a.hasDevPart ≠ b.hasDevPart then b.hasDevPart
    else a.devCount > b.devCount

/-- `__ge__` -/
def ge (a b : BaseVersion) : Except VersionError Bool :=
  a.checked b <|
    if a.releaseTup < b.releaseTup then false
    else if a.extraTup < b.extraTup then false
    else if a.hasDevPart ≠ b.hasDevPart then b.hasDevPart
    else a.devCount ≥ b.devCount

/-! ## The order -/

/-- The part for development releases: a version that has one comes before those without, and
then by its count. -/
def devPart (a : BaseVersion) : Bool ×ₗ ℕ := toLex (!a.hasDevPart, a.devCount)

/-- Release numbers first, then the part for pre- and post-releases, then the one for development
releases. -/
def key (a : BaseVersion) : List ℕ ×ₗ List ℕ ×ₗ Bool ×ₗ ℕ :=
  toLex (a.releaseTup, toLex (a.extraTup, a.devPart))

/-- Both are versions of one class that can be compared. -/
structure Comparable (a b : BaseVersion) : Prop where
  cls : b.cls = a.cls
  left : a.validVersion = true
  right : b.validVersion = true

variable {a b : BaseVersion}

theorem checked_of_comparable (h : Comparable a b) (compare : Bool) :
    a.checked b compare = .ok compare := by
  unfold checked validate
  rw [if_neg (not_not_intro h.cls), h.left, h.right]
  rfl

theorem comparable_of_checked {compare r : Bool} (h : a.checked b compare = .ok r) :
    Comparable a b := by
  unfold checked validate at h
  split at h
  · cases h
  · rename_i hcls
    split at h
    · cases h
    · rename_i hleft
      split at h
      · cases h
      · rename_i hright
        exact ⟨not_not.mp hcls, Bool.eq_true_of_not_eq_false hleft,
          Bool.eq_true_of_not_eq_false hright⟩

theorem devPart_eq_iff : a.devPart = b.devPart ↔
    a.hasDevPart = b.hasDevPart ∧ a.devCount = b.devCount := by
  unfold devPart
  rw [toLex_inj, Prod.mk.injEq, Bool.not_inj_iff]

theorem devPart_lt_iff : a.devPart < b.devPart ↔
    (if a.hasDevPart ≠ b.hasDevPart then a.hasDevPart
      else (a.devCount < b.devCount : Bool)) = true := by
  unfold devPart
  rw [Prod.Lex.toLex_lt_toLex]
  cases a.hasDevPart <;> cases b.hasDevPart <;> simp

theorem devPart_le_iff : a.devPart ≤ b.devPart ↔
    (if a.hasDevPart ≠ b.hasDevPart then a.hasDevPart
      else (a.devCount ≤ b.devCount : Bool)) = true := by
  unfold devPart
  rw [Prod.Lex.toLex_le_toLex]
  cases a.hasDevPart <;> cases b.hasDevPart <;> simp

theorem key_eq_iff : a.key = b.key ↔
    a.releaseTup = b.releaseTup ∧ a.extraTup = b.extraTup ∧ a.devPart = b.devPart := by
  unfold key
  rw [toLex_inj, Prod.mk.injEq, toLex_inj, Prod.mk.injEq]

theorem key_lt_iff : a.key < b.key ↔ a.releaseTup < b.releaseTup ∨
    a.releaseTup = b.releaseTup ∧
      (a.extraTup < b.extraTup ∨ a.extraTup = b.extraTup ∧ a.devPart < b.devPart) := by
  unfold key
  rw [Prod.Lex.toLex_lt_toLex, Prod.Lex.toLex_lt_toLex]

/-! ## What the operators compute -/

theorem Comparable.symm (h : Comparable a b) : Comparable b a where
  cls := h.cls.symm
  left := h.right
  right := h.left

theorem lt_iff (h : Comparable a b) : a.lt b = .ok true ↔ a.key < b.key := by
  unfold lt
  rw [checked_of_comparable h, Except.ok.injEq, key_lt_iff]
  split
  · rename_i hne
    rw [decide_eq_true_eq]
    exact ⟨Or.inl, fun hk => hk.resolve_right fun hk => hne hk.1⟩
  · rename_i heq
    have hrelease := not_not.mp heq
    rw [hrelease]
    split
    · rename_i hne
      rw [decide_eq_true_eq]
      constructor
      · exact fun hlt => Or.inr ⟨rfl, Or.inl hlt⟩
      · intro hk
        have hk := (hk.resolve_left (lt_irrefl _)).2
        exact hk.resolve_right fun hk => hne hk.1
    · rename_i heq
      rw [← devPart_lt_iff, not_not.mp heq]
      constructor
      · exact fun hlt => Or.inr ⟨rfl, Or.inr ⟨rfl, hlt⟩⟩
      · intro hk
        have hk := (hk.resolve_left (lt_irrefl _)).2
        exact (hk.resolve_left (lt_irrefl _)).2

theorem eq_iff (h : Comparable a b) : a.eq b = .ok true ↔ a.key = b.key := by
  unfold eq
  rw [checked_of_comparable h, Except.ok.injEq, key_eq_iff, devPart_eq_iff]
  split
  · rename_i hne
    exact ⟨fun hf => Bool.noConfusion hf, fun hk => absurd hk.1 hne⟩
  · rename_i hrelease
    split
    · rename_i hne
      exact ⟨fun hf => Bool.noConfusion hf, fun hk => absurd hk.2.1 hne⟩
    · rename_i hextra
      split
      · rename_i hne
        exact ⟨fun hf => Bool.noConfusion hf, fun hk => absurd hk.2.2.1 hne⟩
      · rename_i hdev
        split
        · rename_i hne
          exact ⟨fun hf => Bool.noConfusion hf, fun hk => absurd hk.2.2.2 hne⟩
        · rename_i hcount
          exact ⟨fun _ => ⟨not_not.mp hrelease, not_not.mp hextra, not_not.mp hdev,
            not_not.mp hcount⟩, fun _ => rfl⟩

/-- `__ne__` is the negation of `__eq__`, whatever is compared. -/
theorem ne_eq_map_eq : a.ne b = (a.eq b).map not := by
  have hbody : ∀ r, a.checked b (!r) = (a.checked b r).map not := by
    intro r
    unfold checked
    split
    · rfl
    · cases a.validate b <;> rfl
  unfold ne eq
  rw [← hbody]
  congr 1
  split
  · rfl
  · split
    · rfl
    · split
      · rfl
      · split <;> rfl

theorem gt_eq_lt (h : Comparable a b) : a.gt b = b.lt a := by
  unfold gt lt
  rw [checked_of_comparable h, checked_of_comparable h.symm]
  simp only [ne_comm, gt_iff_lt]

theorem ge_eq_le (h : Comparable a b) : a.ge b = b.le a := by
  unfold ge le
  rw [checked_of_comparable h, checked_of_comparable h.symm]
  simp only [ne_comm, gt_iff_lt, ge_iff_le]

/-- `__le__` compares each part without regard for the others. -/
theorem le_iff (h : Comparable a b) : a.le b = .ok true ↔
    a.releaseTup ≤ b.releaseTup ∧ a.extraTup ≤ b.extraTup ∧ a.devPart ≤ b.devPart := by
  unfold le
  rw [checked_of_comparable h, Except.ok.injEq, devPart_le_iff]
  split
  · rename_i hgt
    exact ⟨fun hf => Bool.noConfusion hf, fun hk => absurd hk.1 (not_le_of_gt hgt)⟩
  · rename_i hrelease
    split
    · rename_i hgt
      exact ⟨fun hf => Bool.noConfusion hf, fun hk => absurd hk.2.1 (not_le_of_gt hgt)⟩
    · rename_i hextra
      exact ⟨fun hd => ⟨not_lt.mp hrelease, not_lt.mp hextra, hd⟩, fun hk => hk.2.2⟩

/-- The six operators are those of one order, for these two versions and for every third. -/
structure Agree (a b : BaseVersion) : Prop where
  /-- exactly one of `a < b`, `a == b` and `a > b` -/
  one : a.lt b = .ok true ∧ a.eq b = .ok false ∧ a.gt b = .ok false ∨
    a.lt b = .ok false ∧ a.eq b = .ok true ∧ a.gt b = .ok false ∨
    a.lt b = .ok false ∧ a.eq b = .ok false ∧ a.gt b = .ok true
  le : a.le b = .ok true ↔ a.lt b = .ok true ∨ a.eq b = .ok true
  ge : a.ge b = .ok true ↔ b.le a = .ok true
  ne : a.ne b = .ok true ↔ ¬ a.eq b = .ok true
  trans : ∀ c : BaseVersion, a.lt b = .ok true → b.lt c = .ok true → a.lt c = .ok true
  order : a.lt b = .ok true ↔ a.releaseTup < b.releaseTup ∨
    a.releaseTup = b.releaseTup ∧
      (a.extraTup < b.extraTup ∨ a.extraTup = b.extraTup ∧ a.devPart < b.devPart)

/-- No part of a version that comes before another in the order is greater than the same part of
the other. -/
def NoGreaterPart (a b : BaseVersion) : Prop :=
  (a.releaseTup < b.releaseTup → a.extraTup ≤ b.extraTup ∧ a.devPart ≤ b.devPart) ∧
    (a.releaseTup = b.releaseTup → a.extraTup < b.extraTup → a.devPart ≤ b.devPart)

theorem ok_false_iff (h : Comparable a b) (r : Bool) :
    a.checked b r = .ok false ↔ ¬ a.checked b r = .ok true := by
  rw [checked_of_comparable h, Except.ok.injEq, Except.ok.injEq, Bool.not_eq_true]

theorem trichotomy (h : Comparable a b) :
    a.lt b = .ok true ∧ a.eq b = .ok false ∧ a.gt b = .ok false ∨
      a.lt b = .ok false ∧ a.eq b = .ok true ∧ a.gt b = .ok false ∨
      a.lt b = .ok false ∧ a.eq b = .ok false ∧ a.gt b = .ok true := by
  have hlt : a.lt b = .ok false ↔ ¬ a.key < b.key := by
    rw [← lt_iff h]
    exact ok_false_iff h _
  have heq : a.eq b = .ok false ↔ ¬ a.key = b.key := by
    rw [← eq_iff h]
    exact ok_false_iff h _
  have hgt : a.gt b = .ok false ↔ ¬ b.key < a.key := by
    rw [← lt_iff h.symm, gt_eq_lt h]
    exact ok_false_iff h.symm _
  rw [hlt, heq, hgt, lt_iff h, eq_iff h, gt_eq_lt h, lt_iff h.symm]
  rcases lt_trichotomy a.key b.key with hk | hk | hk
  · exact Or.inl ⟨hk, hk.ne, hk.not_gt⟩
  · exact Or.inr (Or.inl ⟨hk.not_lt, hk, hk.not_gt⟩)
  · exact Or.inr (Or.inr ⟨hk.not_gt, hk.ne', hk⟩)

theorem lt_trans {c : BaseVersion} (hab : a.lt b = .ok true) (hbc : b.lt c = .ok true) :
    a.lt c = .ok true := by
  have hab' : Comparable a b := comparable_of_checked hab
  have hbc' : Comparable b c := comparable_of_checked hbc
  have hac : Comparable a c := ⟨hbc'.cls.trans hab'.cls, hab'.left, hbc'.right⟩
  rw [lt_iff hab'] at hab
  rw [lt_iff hbc'] at hbc
  rw [lt_iff hac]
  exact hab.trans hbc

/-- `__le__` is `__lt__` or `__eq__` where no part goes against the order. -/
theorem le_iff_lt_or_eq_iff (h : Comparable a b) :
    (a.le b = .ok true ↔ a.lt b = .ok true ∨ a.eq b = .ok true) ↔ NoGreaterPart a b := by
  rw [le_iff h, lt_iff h, eq_iff h, key_lt_iff, key_eq_iff]
  unfold NoGreaterPart
  constructor
  · intro hle
    constructor
    · exact fun hrelease => (hle.mpr (Or.inl (Or.inl hrelease))).2
    · exact fun hrelease hextra => (hle.mpr (Or.inl (Or.inr ⟨hrelease, Or.inl hextra⟩))).2.2
  · rintro ⟨hrelease, hextra⟩
    constructor
    · rintro ⟨hr, he, hd⟩
      rcases hr.lt_or_eq with hr | hr
      · exact Or.inl (Or.inl hr)
      · rcases he.lt_or_eq with he | he
        · exact Or.inl (Or.inr ⟨hr, Or.inl he⟩)
        · rcases hd.lt_or_eq with hd | hd
          · exact Or.inl (Or.inr ⟨hr, Or.inr ⟨he, hd⟩⟩)
          · exact Or.inr ⟨hr, he, hd⟩
    · rintro ((hr | ⟨hr, he | ⟨he, hd⟩⟩) | ⟨hr, he, hd⟩)
      · exact ⟨hr.le, hrelease hr⟩
      · exact ⟨hr.le, he.le, hextra hr he⟩
      · exact ⟨hr.le, he.le, hd.le⟩
      · exact ⟨hr.le, he.le, hd.le⟩

/-- For two valid versions of a class the operators are those of the order exactly if no part
of the one goes against it. -/
theorem agree_iff (h : Comparable a b) : Agree a b ↔ NoGreaterPart a b := by
  rw [← le_iff_lt_or_eq_iff h]
  constructor
  · exact fun hagree => hagree.le
  · intro hle
    refine ⟨trichotomy h, hle, ?_, ?_, fun c => lt_trans, ?_⟩
    · rw [ge_eq_le h]
    · rw [ne_eq_map_eq]
      unfold eq
      rw [checked_of_comparable h]
      change Except.ok _ = _ ↔ _
      rw [Except.ok.injEq, Except.ok.injEq, Bool.not_eq_true', Bool.not_eq_true]
    · rw [lt_iff h, key_lt_iff]

/-- `1.0rc1` and `1.0`: the one is a pre-release of the other. -/
theorem agree_iff_preRelease : ∃ a b : BaseVersion,
    PyVersion.init "1.0rc1".toList = .ok a ∧ PyVersion.init "1.0".toList = .ok b ∧
      a.lt b = .ok true ∧ (Agree a b ↔ NoGreaterPart a b) :=
  ⟨⟨.pyVersion, "1.0rc1".toList, [1, 0], [0, 3, 1], false, 0, true⟩,
    ⟨.pyVersion, "1.0".toList, [1, 0], [1, 0, 0], false, 0, true⟩, by decide +kernel,
    by decide +kernel, by decide +kernel, agree_iff ⟨rfl, rfl, rfl⟩⟩

/-- `v0.8.0-50` is less than `v0.9.0-1`, and it is not less than or equal to it; the same holds of
`1.0` and `1.1rc1`. -/
theorem lt_and_not_le : ∃ a b c d : BaseVersion,
    GitVersion.init "v0.8.0-50".toList = .ok a ∧ GitVersion.init "v0.9.0-1".toList = .ok b ∧
      PyVersion.init "1.0".toList = .ok c ∧ PyVersion.init "1.1rc1".toList = .ok d ∧
      a.validVersion = true ∧ b.validVersion = true ∧ a.lt b = .ok true ∧ a.le b = .ok false ∧
      c.validVersion = true ∧ d.validVersion = true ∧ c.lt d = .ok true ∧ c.le d = .ok false :=
  ⟨⟨.gitVersion, "v0.8.0-50".toList, [0, 8, 0], [1, 0, 0], true, 50, true⟩,
    ⟨.gitVersion, "v0.9.0-1".toList, [0, 9, 0], [1, 0, 0], true, 1, true⟩,
    ⟨.pyVersion, "1.0".toList, [1, 0], [1, 0, 0], false, 0, true⟩,
    ⟨.pyVersion, "1.1rc1".toList, [1, 1], [0, 3, 1], false, 0, true⟩, by decide +kernel⟩

end BaseVersion

end FlsunT1.Moonraker
