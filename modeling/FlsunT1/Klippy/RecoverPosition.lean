/-
  Klippy/RecoverPosition.lean --- the position after a power loss, with excluded objects
  (recover_file_position, klippy/extras/virtual_sdcard.py).

  The search goes back from the position in windows of 8192 bytes and 25 more, the first of which
  starts at the position itself.
-/
import Mathlib.Data.Nat.Find
import FlsunT1.Klippy.VirtualSd
import FlsunT1.Library.LineStarts

set_option autoImplicit false

namespace FlsunT1.Klippy

open Library

/-! ## Labels in a file -/

/-- The text that a label begins with. -/
def labelStart : List Char := "EXCLUDE_OBJECT_START NAME".toList

/-- A line that begins as a label does starts at the position. -/
def IsLabel (data : Bytes) (q : ℕ) : Prop :=
  StartsLine newline data q ∧ encodeUtf8 labelStart <+: lineAt newline data q

instance (data : Bytes) (q : ℕ) : Decidable (IsLabel data q) := inferInstanceAs (Decidable (_ ∧ _))

/-- It has more than that text. -/
def IsNamed (data : Bytes) (q : ℕ) : Prop := 25 < (lineAt newline data q).length

/-- The last label at or before a position. -/
structure LastLabel (data : Bytes) (original m : ℕ) : Prop where
  label : IsLabel data m
  le : m ≤ original
  last : ∀ q, IsLabel data q → q ≤ original → q ≤ m

/-- The result that is meant: the last label at or before the position, or the position. -/
def IsMeant (data : Bytes) (original r : ℕ) : Prop :=
  LastLabel data original r ∨ ((∀ q, IsLabel data q → ¬ q ≤ original) ∧ r = original)

/-! ## One window -/

/-- A label that the window from a position sees. -/
structure Seen (data : Bytes) (p q : ℕ) : Prop where
  above : p < q
  below : q ≤ p + 8191
  label : IsLabel data q
  named : IsNamed data q

/-- The window from a position ends within a character, in a line that starts within the window. -/
def CutsCharacter (data : Bytes) (p : ℕ) : Prop :=
  ∃ q, p < q ∧ q ≤ p + 8217 ∧ StartsLine newline data q ∧
    decodeUtf8 ((lineAt newline data q).take (p + 8217 - q)) = none

/-- A line of a window that `lastLabel` takes for a label. -/
def Labelled (line : Bytes) : Prop := 25 < line.length ∧ encodeUtf8 labelStart <+: line

instance (line : Bytes) : Decidable (Labelled line) := inferInstanceAs (Decidable (_ ∧ _))

theorem labelled_iff {line : Bytes} {s : String} (h : decodeUtf8 line = some s) :
    (25 < s.length ∧ s.toList.take 25 = labelStart) ↔ Labelled line := by
  have hline := eq_encodeUtf8_of_decodeUtf8 h
  have hascii : ∀ c ∈ labelStart, c.toNat < 0x80 := by decide
  have hfront : s.toList.take 25 = labelStart ↔ labelStart <+: s.toList := by
    rw [List.prefix_iff_eq_take]
    exact eq_comm
  unfold Labelled
  rw [hfront, hline, encodeUtf8_prefix_iff hascii]
  refine and_congr_left fun hlabel => ?_
  obtain ⟨rest, hrest⟩ := hlabel
  have hlabelLength : labelStart.length = 25 ∧ (encodeUtf8 labelStart).length = 25 := by decide
  rw [← String.length_toList, ← hrest, encodeUtf8_append, List.length_append, List.length_append,
    hlabelLength.1, hlabelLength.2]
  cases rest with
  | nil => simp
  | cons c rest =>
    obtain ⟨b, bs, hc⟩ := List.exists_cons_of_ne_nil (String.utf8EncodeChar_ne_nil (c := c))
    simp [hc]

theorem lastLabel_cons {line : Bytes} {s : String} (h : decodeUtf8 line = some s) (next : ℕ)
    (found : Bool × ℕ) (lines : List Bytes) :
    lastLabel next found (line :: lines) =
      lastLabel (next + line.length + 1) (if Labelled line then (true, next) else found) lines := by
  rw [lastLabel, h, Option.bind_some]
  exact congrArg (fun found => lastLabel _ found lines) (if_congr (labelled_iff h) rfl rfl)

/-- The loop over the lines of a window raises at a line that is no text. -/
theorem lastLabel_eq_none {lines : List Bytes} {next : ℕ} {found : Bool × ℕ} :
    lastLabel next found lines = none ↔ ∃ x ∈ offsets next lines, decodeUtf8 x.2 = none := by
  induction lines generalizing next found with
  | nil =>
    constructor
    · intro h
      cases h
    · rintro ⟨x, hx, -⟩
      exact absurd hx List.not_mem_nil
  | cons line lines ih =>
    cases hline : decodeUtf8 line with
    | none =>
      rw [lastLabel, hline]
      exact iff_of_true rfl ⟨_, List.mem_cons_self, hline⟩
    | some s =>
      rw [lastLabel_cons hline, ih]
      constructor
      · rintro ⟨x, hx, hnone⟩
        exact ⟨x, List.mem_cons_of_mem _ hx, hnone⟩
      · rintro ⟨x, hx, hnone⟩
        obtain rfl | hx := List.mem_cons.mp hx
        · exact absurd (hline.symm.trans hnone) (Option.some_ne_none s)
        · exact ⟨x, hx, hnone⟩

/-- It gives the last of the lines that are labels, if there is one. -/
theorem lastLabel_eq_some {lines : List Bytes} {next : ℕ} {found r : Bool × ℕ}
    (h : lastLabel next found lines = some r) :
    (r.1 = true ∧ (∃ l, (r.2, l) ∈ offsets next lines ∧ Labelled l) ∧
        ∀ x ∈ offsets next lines, Labelled x.2 → x.1 ≤ r.2) ∨
      (r = found ∧ ∀ x ∈ offsets next lines, ¬ Labelled x.2) := by
  induction lines generalizing next found with
  | nil => exact .inr ⟨(Option.some.inj h).symm, fun x hx => absurd hx List.not_mem_nil⟩
  | cons line lines ih =>
    cases hline : decodeUtf8 line with
    | none =>
      rw [lastLabel, hline] at h
      cases h
    | some s =>
      rw [lastLabel_cons hline] at h
      obtain ⟨hflag, ⟨l, hl, hlabelled⟩, hlast⟩ | ⟨hfound, hnone⟩ := ih h
      · refine .inl ⟨hflag, ⟨l, List.mem_cons_of_mem _ hl, hlabelled⟩, fun x hx hx' => ?_⟩
        obtain rfl | hx := List.mem_cons.mp hx
        · have hle := le_of_mem_offsets hl
          dsimp only at hle ⊢
          omega
        · exact hlast x hx hx'
      · split at hfound
        · rename_i hlabelled
          refine .inl ⟨?_, ⟨line, ?_, hlabelled⟩, fun x hx hx' => ?_⟩
          · rw [hfound]
          · rw [hfound]
            exact List.mem_cons_self
          · obtain rfl | hx := List.mem_cons.mp hx
            · rw [hfound]
            · exact absurd hx' (hnone x hx)
        · rename_i hlabelled
          refine .inr ⟨hfound, fun x hx => ?_⟩
          obtain rfl | hx := List.mem_cons.mp hx
          · exact hlabelled
          · exact hnone x hx

theorem mem_window {data : Bytes} {p k : ℕ} {first l : Bytes} {lines : List Bytes}
    (hpieces : ((data.drop p).take (8192 + 25)).splitOn newline = first :: lines) (hk : k ≤ 8217) :
    (p + k, l) ∈ offsets (p + first.length + 1) lines ↔
      k ≠ 0 ∧ StartsLine newline data (p + k) ∧
        l = (lineAt newline data (p + k)).take (8217 - k) := by
  rw [mem_offsets_tail, ← hpieces, mem_offsets_splitOn, lineAt_window]
  refine and_congr_right fun hne => and_congr_left fun _ => ?_
  exact startsLine_window hne hk

theorem labelled_take {line : Bytes} {n : ℕ} :
    Labelled (line.take n) ↔ 25 < n ∧ 25 < line.length ∧ encodeUtf8 labelStart <+: line := by
  have hlength : (encodeUtf8 labelStart).length = 25 := by decide
  unfold Labelled
  rw [List.length_take, Nat.lt_min, List.prefix_take_iff, hlength, and_assoc]
  refine and_congr_right fun hn => and_congr_right fun _ => ?_
  exact and_iff_left hn.le


theorem le_of_mem_window {data : Bytes} {p k : ℕ} {first l : Bytes} {lines : List Bytes}
    (hpieces : ((data.drop p).take (8192 + 25)).splitOn newline = first :: lines)
    (h : (p + k, l) ∈ offsets (p + first.length + 1) lines) : k ≤ 8217 := by
  rw [mem_offsets_tail, ← hpieces, mem_offsets_splitOn] at h
  obtain ⟨hk, hstart, -⟩ := h
  obtain hzero | hsep := hstart
  · exact absurd hzero hk
  · obtain ⟨hlt, -⟩ := List.getElem?_eq_some_iff.mp hsep
    rw [List.length_take] at hlt
    omega

theorem seen_iff {data : Bytes} {p q : ℕ} {first : Bytes} {lines : List Bytes}
    (hpieces : ((data.drop p).take (8192 + 25)).splitOn newline = first :: lines) :
    Seen data p q ↔ ∃ l, (q, l) ∈ offsets (p + first.length + 1) lines ∧ Labelled l := by
  constructor
  · rintro ⟨habove, hbelow, ⟨hstart, hlabel⟩, hnamed⟩
    obtain ⟨k, rfl⟩ := Nat.exists_eq_add_of_le habove.le
    refine ⟨_, (mem_window hpieces (by omega)).mpr ⟨by omega, hstart, rfl⟩, ?_⟩
    exact labelled_take.mpr ⟨by omega, hnamed, hlabel⟩
  · rintro ⟨l, hl, hlabelled⟩
    have hle : p + first.length + 1 ≤ q := le_of_mem_offsets hl
    obtain ⟨k, rfl⟩ := Nat.exists_eq_add_of_le (show p ≤ q by omega)
    obtain ⟨hk, hstart, rfl⟩ := (mem_window hpieces (le_of_mem_window hpieces hl)).mp hl
    obtain ⟨hn, hnamed, hlabel⟩ := labelled_take.mp hlabelled
    exact ⟨by omega, by omega, ⟨hstart, hlabel⟩, hnamed⟩

theorem cutsCharacter_iff {data : Bytes} {p : ℕ} {first : Bytes} {lines : List Bytes}
    (hpieces : ((data.drop p).take (8192 + 25)).splitOn newline = first :: lines) :
    CutsCharacter data p ↔
      ∃ x ∈ offsets (p + first.length + 1) lines, decodeUtf8 x.2 = none := by
  constructor
  · rintro ⟨q, habove, hbelow, hstart, hnone⟩
    obtain ⟨k, rfl⟩ := Nat.exists_eq_add_of_le habove.le
    refine ⟨_, (mem_window hpieces (by omega)).mpr ⟨by omega, hstart, rfl⟩, ?_⟩
    rwa [show p + 8217 - (p + k) = 8217 - k by omega] at hnone
  · rintro ⟨⟨q, l⟩, hl, hnone⟩
    have hle : p + first.length + 1 ≤ q := le_of_mem_offsets hl
    obtain ⟨k, rfl⟩ := Nat.exists_eq_add_of_le (show p ≤ q by omega)
    have hend := le_of_mem_window hpieces hl
    obtain ⟨hk, hstart, rfl⟩ := (mem_window hpieces hend).mp hl
    refine ⟨p + k, by omega, by omega, hstart, ?_⟩
    rwa [show p + 8217 - (p + k) = 8217 - k by omega]

/-- Nothing is seen in the window from a position. -/
def SeesNothing (data : Bytes) (p : ℕ) : Prop := ∀ q, ¬ Seen data p q

/-- What one window gives: an error, the last label that it sees, or nothing. -/
inductive WindowSees (data : Bytes) (p : ℕ) : Option (Bool × ℕ) → Prop
  | raised (hcut : CutsCharacter data p) : WindowSees data p none
  | found {e : ℕ} (hcut : ¬ CutsCharacter data p) (hseen : Seen data p e)
      (hlast : ∀ q, Seen data p q → q ≤ e) : WindowSees data p (some (true, e))
  | nothing (hcut : ¬ CutsCharacter data p) (hquiet : SeesNothing data p) :
      WindowSees data p (some (false, p))

theorem recoverFilePositionFrom_sees (data : Bytes) (p : ℕ) :
    WindowSees data p (recoverFilePositionFrom data p) := by
  unfold recoverFilePositionFrom
  obtain ⟨first, lines, hpieces⟩ := List.exists_cons_of_ne_nil
    (List.splitOn_ne_nil newline ((data.drop p).take (8192 + 25)))
  rw [hpieces]
  dsimp only
  generalize hr : lastLabel (p + first.length + 1) (false, p) lines = r
  have hcut : CutsCharacter data p ↔ r = none := by
    rw [cutsCharacter_iff hpieces, ← hr, lastLabel_eq_none]
  cases r with
  | none => exact .raised (hcut.mpr rfl)
  | some r =>
    have hwhole : ¬ CutsCharacter data p := fun h => absurd (hcut.mp h) (Option.some_ne_none r)
    obtain ⟨hflag, hmem, hlast⟩ | ⟨rfl, hnone⟩ := lastLabel_eq_some hr
    · obtain ⟨flag, e⟩ := r
      obtain rfl : flag = true := hflag
      refine .found hwhole ((seen_iff hpieces).mpr hmem) fun q hq => ?_
      obtain ⟨l, hl, hlabelled⟩ := (seen_iff hpieces).mp hq
      exact hlast _ hl hlabelled
    · refine .nothing hwhole fun q hq => ?_
      obtain ⟨l, hl, hlabelled⟩ := (seen_iff hpieces).mp hq
      exact hnone _ hl hlabelled

/-! ## The search -/

/-- What the search from a position gives: an error in the first window where one arises, the last
label of the first window that sees one, or nothing. -/
inductive Searched (data : Bytes) (p : ℕ) : Option (Option ℕ) → Prop
  | raised (k : ℕ) (hquiet : ∀ j < k, SeesNothing data (p - 8192 * j))
      (hcut : CutsCharacter data (p - 8192 * k)) : Searched data p none
  | found {e : ℕ} (k : ℕ) (hquiet : ∀ j < k, SeesNothing data (p - 8192 * j))
      (hcut : ∀ j ≤ k, ¬ CutsCharacter data (p - 8192 * j)) (hseen : Seen data (p - 8192 * k) e)
      (hlast : ∀ q, Seen data (p - 8192 * k) q → q ≤ e) : Searched data p (some (some e))
  | nothing (hquiet : ∀ j, SeesNothing data (p - 8192 * j))
      (hcut : ∀ j, ¬ CutsCharacter data (p - 8192 * j)) : Searched data p (some none)

theorem forall_windows {P : ℕ → Prop} {p n : ℕ} (h : P p)
    (hrest : ∀ j < n, P (p - 8192 - 8192 * j)) : ∀ j < n + 1, P (p - 8192 * j) := by
  intro j hj
  cases j with
  | zero => exact h
  | succ j =>
    have hp := hrest j (by omega)
    rwa [show p - 8192 - 8192 * j = p - 8192 * (j + 1) by omega] at hp

theorem recoverLoop_searched (data : Bytes) (p : ℕ) : Searched data p (recoverLoop data p) := by
  induction p using Nat.strong_induction_on with
  | _ p ih =>
    unfold recoverLoop
    have hsees := recoverFilePositionFrom_sees data p
    generalize recoverFilePositionFrom data p = r at hsees
    cases hsees with
    | raised hcut => exact .raised 0 (fun j hj => absurd hj (Nat.not_lt_zero j)) hcut
    | @found e hcut hseen hlast =>
      refine .found 0 (fun j hj => absurd hj (Nat.not_lt_zero j)) (fun j hj => ?_) hseen hlast
      obtain rfl := Nat.le_zero.mp hj
      exact hcut
    | nothing hcut hquiet =>
      dsimp only
      split
      · rename_i hp
        subst hp
        refine .nothing (fun j => ?_) fun j => ?_
        · rwa [Nat.zero_sub]
        · rwa [Nat.zero_sub]
      · have hrest := ih (p - 8192) (by omega)
        generalize recoverLoop data (p - 8192) = r at hrest
        have hnext : ∀ j, p - 8192 - 8192 * j = p - 8192 * (j + 1) := fun j => by omega
        cases hrest with
        | raised k hquiet' hcut' =>
          rw [hnext] at hcut'
          exact .raised (k + 1) (forall_windows hquiet hquiet') hcut'
        | found k hquiet' hcut' hseen hlast =>
          rw [hnext] at hseen hlast
          refine .found (k + 1) (forall_windows hquiet hquiet') (fun j hj => ?_) hseen hlast
          exact forall_windows (P := fun p => ¬ CutsCharacter data p) hcut
            (fun j hj => hcut' j (Nat.le_of_lt_succ hj)) j (Nat.lt_succ_of_le hj)
        | nothing hquiet' hcut' =>
          refine .nothing (fun j => ?_) fun j => ?_
          · exact forall_windows hquiet (fun j _ => hquiet' j) j j.lt_succ_self
          · exact forall_windows (P := fun p => ¬ CutsCharacter data p) hcut
              (fun j _ => hcut' j) j j.lt_succ_self

/-! ## When the search finds the last label -/

/-- A window below the position sees a label there: not the windows that end before it, which are
those that start where it does, and none sees the front of the file. -/
def InView (original q : ℕ) : Prop := q ≠ 0 ∧ (8192 ≤ q → q % 8192 ≠ original % 8192)

/-- When the result is the one that is meant.

No label with a name is in the 8191 bytes after the position, where the first window looks; no
window that is read cuts a character; and the last label at or before the position has a name and
is in view, or it is at the position, where no other such label is before it. -/
structure FindsLabel (data : Bytes) (original : ℕ) : Prop where
  ahead : ∀ q, original < q → q ≤ original + 8191 → IsLabel data q → ¬ IsNamed data q
  whole : ∀ k, (∀ j < k, SeesNothing data (original - 8192 * j)) →
    ¬ CutsCharacter data (original - 8192 * k)
  last : ∀ m, LastLabel data original m → (IsNamed data m ∧ InView original m) ∨
    (m = original ∧ ∀ q ≤ original, IsLabel data q → IsNamed data q → ¬ InView original q)

variable {data : Bytes} {original r : ℕ}

theorem exists_seen_iff {q : ℕ} (hq : q ≤ original) :
    (∃ k, Seen data (original - 8192 * k) q) ↔
      IsLabel data q ∧ IsNamed data q ∧ InView original q := by
  constructor
  · rintro ⟨k, habove, hbelow, hlabel, hnamed⟩
    refine ⟨hlabel, hnamed, by omega, fun hlarge hmod => ?_⟩
    omega
  · rintro ⟨hlabel, hnamed, hfront, hview⟩
    refine ⟨(original - q) / 8192 + 1, ?_, ?_, hlabel, hnamed⟩
    · omega
    · by_contra hlt
      have hmod : (original - q) % 8192 = 0 := by omega
      exact hview (by omega) (by omega)

theorem exists_lastLabel {q : ℕ} (hlabel : IsLabel data q) (hq : q ≤ original) :
    ∃ m, LastLabel data original m := by
  classical
  refine ⟨Nat.findGreatest (IsLabel data) original, ?_, Nat.findGreatest_le _, ?_⟩
  · exact Nat.findGreatest_spec hq hlabel
  · exact fun q' hq' hle => Nat.le_findGreatest hle hq'

theorem le_of_first_window {e k : ℕ} (hbefore : ∀ j < k, SeesNothing data (original - 8192 * j))
    (hlast : ∀ q, Seen data (original - 8192 * k) q → q ≤ e)
    (hseen : Seen data (original - 8192 * k) e) {q : ℕ} (hq : q ≤ original)
    (hlabel : IsLabel data q) (hnamed : IsNamed data q) (hview : InView original q) : q ≤ e := by
  obtain ⟨j, hj⟩ := (exists_seen_iff hq).mpr ⟨hlabel, hnamed, hview⟩
  obtain hjk | rfl | hkj := lt_trichotomy j k
  · exact absurd hj (hbefore j hjk q)
  · exact hlast q hj
  · by_contra hlt
    have hbelow := hj.below
    have habove := hseen.above
    exact hlt (hlast q ⟨by omega, by omega, hlabel, hnamed⟩)

theorem FindsLabel.isMeant (h : FindsLabel data original) {s : Option (Option ℕ)}
    (hs : Searched data original s) :
    ∃ e, s = some e ∧ IsMeant data original (e.getD original) := by
  cases hs with
  | raised k hquiet hcut => exact absurd hcut (h.whole k hquiet)
  | @found e k hbefore hcut hseen hlast =>
    refine ⟨_, rfl, .inl ?_⟩
    rw [Option.getD_some]
    have hle : e ≤ original := by
      by_contra hlt
      have hbelow := hseen.below
      exact h.ahead e (by omega) (by omega) hseen.label hseen.named
    obtain ⟨m, hm⟩ := exists_lastLabel hseen.label hle
    obtain ⟨-, -, hview⟩ := (exists_seen_iff hle).mp ⟨k, hseen⟩
    have hme : m ≤ e := by
      obtain ⟨hnamed, hmview⟩ | ⟨-, hnone⟩ := h.last m hm
      · exact le_of_first_window hbefore hlast hseen hm.le hm.label hnamed hmview
      · exact absurd hview (hnone e hle hseen.label hseen.named)
    rwa [le_antisymm (hm.last e hseen.label hle) hme]
  | nothing hquiet hcut =>
    refine ⟨_, rfl, ?_⟩
    rw [Option.getD_none]
    by_cases hexists : ∃ q, IsLabel data q ∧ q ≤ original
    · obtain ⟨q, hlabel, hq⟩ := hexists
      obtain ⟨m, hm⟩ := exists_lastLabel hlabel hq
      obtain ⟨hnamed, hview⟩ | ⟨rfl, -⟩ := h.last m hm
      · obtain ⟨k, hk⟩ := (exists_seen_iff hm.le).mpr ⟨hm.label, hnamed, hview⟩
        exact absurd hk (hquiet k m)
      · exact .inl hm
    · exact .inr ⟨fun q hlabel hq => hexists ⟨q, hlabel, hq⟩, rfl⟩

theorem findsLabel_of_isMeant {e : Option ℕ} (hs : Searched data original (some e))
    (hmeant : IsMeant data original (e.getD original)) : FindsLabel data original := by
  cases hs with
  | @found e k hbefore hcut hseen hlast =>
    rw [Option.getD_some] at hmeant
    have hm : LastLabel data original e := by
      obtain hm | ⟨hnone, rfl⟩ := hmeant
      · exact hm
      · exact absurd le_rfl (hnone e hseen.label)
    obtain ⟨-, hnamed, hview⟩ := (exists_seen_iff hm.le).mp ⟨k, hseen⟩
    refine ⟨fun q hq hq' hlabel hnamed => ?_, fun k' hquiet => ?_, fun m hm' => ?_⟩
    · have hzero : Seen data (original - 8192 * 0) q := ⟨hq, hq', hlabel, hnamed⟩
      cases k with
      | zero =>
        have := hlast q hzero
        have := hm.le
        omega
      | succ k => exact hbefore 0 k.succ_pos q hzero
    · obtain hk | hk := le_or_gt k' k
      · exact hcut k' hk
      · exact absurd hseen (hquiet k hk e)
    · have hme : m = e := le_antisymm (hm.last m hm'.label hm'.le) (hm'.last e hm.label hm.le)
      rw [hme]
      exact .inl ⟨hnamed, hview⟩
  | nothing hquiet hcut =>
    refine ⟨fun q hq hq' hlabel hnamed => ?_, fun k _ => hcut k, fun m hm => ?_⟩
    · exact hquiet 0 q ⟨hq, hq', hlabel, hnamed⟩
    · rw [Option.getD_none] at hmeant
      obtain hm' | ⟨hnone, -⟩ := hmeant
      · refine .inr ⟨le_antisymm hm.le (hm.last original hm'.label le_rfl), ?_⟩
        intro q hq hlabel hnamed hview
        obtain ⟨k, hk⟩ := (exists_seen_iff hq).mpr ⟨hlabel, hnamed, hview⟩
        exact hquiet k q hk
      · exact absurd hm.le (hnone m hm.label)

variable {σ : Type*}

theorem filePosition_recoverFilePosition {h : Host σ} {w : World σ} {f : SdFile}
    (hexcluded : h.hasExcludedObjects w.host = true) (hfile : w.sd.currentFile = some f) :
    (recoverFilePosition h w).map (·.sd.filePosition) =
      (recoverLoop f.data w.sd.filePosition).map (·.getD w.sd.filePosition) := by
  unfold recoverFilePosition
  rw [if_pos hexcluded, hfile]
  dsimp only
  cases recoverLoop f.data w.sd.filePosition with
  | none => rfl
  | some e => cases e <;> rfl

/-- With excluded objects `recover_file_position` gives the last label at or before the position,
or the position if there is none, exactly when the search finds that label. -/
theorem recoverFilePosition_isMeant_iff {h : Host σ} {w : World σ} {f : SdFile}
    (hexcluded : h.hasExcludedObjects w.host = true) (hfile : w.sd.currentFile = some f) :
    (∃ w', recoverFilePosition h w = some w' ∧
        IsMeant f.data w.sd.filePosition w'.sd.filePosition) ↔
      FindsLabel f.data w.sd.filePosition := by
  have hs := recoverLoop_searched f.data w.sd.filePosition
  have hposition := filePosition_recoverFilePosition hexcluded hfile
  constructor
  · rintro ⟨w', hw, hmeant⟩
    rw [hw, Option.map_some] at hposition
    obtain ⟨e, he, hp⟩ := Option.map_eq_some_iff.mp hposition.symm
    rw [he] at hs
    rw [← hp] at hmeant
    exact findsLabel_of_isMeant hs hmeant
  · intro hfinds
    obtain ⟨e, he, hmeant⟩ := hfinds.isMeant hs
    rw [he, Option.map_some] at hposition
    obtain ⟨w', hw, hp⟩ := Option.map_eq_some_iff.mp hposition
    refine ⟨w', hw, ?_⟩
    rwa [hp]

/-- A file with a label for each of two objects. -/
def twoObjects : Bytes :=
  "G28\nEXCLUDE_OBJECT_START NAME=A\nG1\nEXCLUDE_OBJECT_START NAME=B\nG1\n".toUTF8.toList

/-- A program that does nothing and has excluded objects. -/
def excludingHost : Host Unit where
  mutexTest := fun _ => false
  reactorPause := id
  idle := id
  readWait := id
  readFails := fun _ => false
  runScript := fun _ w => (none, w)
  runScriptFromCommand := fun _ w => (none, w)
  checkToPause := fun w => (.ok false, w)
  recordGcodeBegin := fun _ _ => id
  recordGcodeEnd := id
  onErrorGcode := fun _ => none
  excludeObjectGcode := fun _ => none
  hasExcludedObjects := fun _ => true
  clearInitialExtrusionMoves := id

/-- A card that prints a file from a position. -/
def printingFrom (data : Bytes) (position : ℕ) : World Unit :=
  ⟨VirtualSd.init.loadFile data position, ()⟩

/-- With only the first object in the file the position goes back to its label. -/
theorem recoverFilePosition_isMeant_iff_first : FindsLabel (twoObjects.take 35) 32 := by
  have hfirst : recoverFilePositionFrom (twoObjects.take 35) 32 = some (false, 32) := by
    decide +kernel
  have hsecond : recoverFilePositionFrom (twoObjects.take 35) 0 = some (true, 4) := by
    decide +kernel
  have hloop : recoverLoop (twoObjects.take 35) 32 = some (some 4) := by
    rw [recoverLoop, hfirst]
    dsimp only
    rw [if_neg (by decide), recoverLoop, hsecond]
  have hlast : ∀ q ≤ 32, IsLabel (twoObjects.take 35) q → q ≤ 4 := by decide +kernel
  have hposition := filePosition_recoverFilePosition (h := excludingHost)
    (w := printingFrom (twoObjects.take 35) 32) (f := ⟨twoObjects.take 35, 0⟩) rfl rfl
  obtain ⟨w, hw, hp⟩ := Option.map_eq_some_iff.mp
    (hposition.trans (congrArg (Option.map (·.getD 32)) hloop))
  refine (recoverFilePosition_isMeant_iff (h := excludingHost)
    (w := printingFrom (twoObjects.take 35) 32) (f := ⟨twoObjects.take 35, 0⟩) rfl rfl).mp
    ⟨w, hw, .inl ⟨?_, ?_, fun q hlabel hq => ?_⟩⟩
  · rw [hp]
    decide +kernel
  · rw [hp]
    decide +kernel
  · rw [hp]
    exact hlast q hq hlabel

/-- The label of the second object is ahead of the position, and it is taken. -/
theorem label_ahead_of_position :
    StartsLine newline twoObjects 32 ∧
      ∃ w, recoverFilePosition excludingHost (printingFrom twoObjects 32) = some w ∧
        w.sd.filePosition = 35 ∧ ¬ IsMeant twoObjects 32 w.sd.filePosition := by
  have hfirst : recoverFilePositionFrom twoObjects 32 = some (true, 35) := by decide +kernel
  have hloop : recoverLoop twoObjects 32 = some (some 35) := by rw [recoverLoop, hfirst]
  have hposition := filePosition_recoverFilePosition (h := excludingHost)
    (w := printingFrom twoObjects 32) (f := ⟨twoObjects, 0⟩) rfl rfl
  obtain ⟨w, hw, hp⟩ := Option.map_eq_some_iff.mp
    (hposition.trans (congrArg (Option.map (·.getD 32)) hloop))
  refine ⟨by decide +kernel, w, hw, hp, ?_⟩
  rw [hp]
  rintro (hlast | ⟨-, h⟩)
  · exact absurd hlast.le (by decide)
  · exact absurd h (by decide)

end FlsunT1.Klippy
