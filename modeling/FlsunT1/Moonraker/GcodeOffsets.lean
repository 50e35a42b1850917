/-
  Moonraker/GcodeOffsets.lean --- where the commands of a g-code file begin and end
  (get_slicer and class BaseSlicer, components/file_manager/metadata.py).

  The file is opened in text mode: UTF-8 is decoded and every line end is read as a newline.
  Each character that is read stands here with the bytes that it takes in the file.
-/
import Mathlib.Order.Nat
import FlsunT1.Library.Regex
import FlsunT1.Library.Utf8

set_option autoImplicit false

namespace FlsunT1.Moonraker

open Library Regex

/-! ## Reading the file -/

/-- `READ_SIZE` -/
def readSize : ℕ := 512 * 1024

/-- Characters that were read, with the bytes of each. -/
abbrev ReadText := List (Char × ℕ)

/-- What is read of a text. -/
def readText : Text → ReadText
  | [] => []
  | '\r' :: '\n' :: t => ('\n', 2) :: readText t
  | c :: t => (if c = '\r' then '\n' else c, c.utf8Size) :: readText t

/-- The characters alone, as the code has them. -/
def ReadText.chars (w : ReadText) : Text := w.map Prod.fst

/-- The bytes of the characters. -/
def ReadText.bytes : ReadText → ℕ
  | [] => 0
  | x :: w => x.2 + bytes w

/-- `l[k:]` -/
def sliceFrom {α : Type} (l : List α) (k : ℤ) : List α :=
  l.drop (if k < 0 then l.length + k else k).toNat

/-- What `set_data` is given. -/
structure SlicerData where
  header : ReadText
  footer : ReadText
  size : ℕ
  deriving DecidableEq

/-- `get_slicer`, for the file with this text.  A seek to a byte that is not the first of a
character makes the decoder fail. -/
def getSlicer (text : Text) : Option SlicerData :=
  let size := (encodeUtf8 text).length
  let header := (readText text).take readSize
  if readSize * 2 < size then
    (decodeUtf8 ((encodeUtf8 text).drop (size - readSize))).map fun s =>
      { header := header, footer := readText s.toList, size := size }
  else if readSize < size then
    let remaining := (size : ℤ) - readSize
    some
      { header := header
        footer := sliceFrom header (remaining - readSize) ++ (readText text).drop readSize
        size := size }
  else some { header := header, footer := header, size := size }

/-! ## The patterns -/

/-- `[MG]` -/
def isMG (c : Char) : Bool := c == 'M' || c == 'G'

/-- `\n` -/
def newline : Regex Empty := .char (· == '\n')

/-- `.*` -/
def restOfLine : Regex Empty := .star (.char (· != '\n'))

/-- `\n[MG]\d+\s.*\n` -/
def startPattern : Regex Empty :=
  .seq newline (.seq (.char isMG) (.seq (plus (.char isDecimal))
    (.seq (.char Text.isSpace) (.seq restOfLine newline))))

/-- `\n.*\s\d+[MG]\n` -/
def endPattern : Regex Empty :=
  .seq newline (.seq restOfLine (.seq (.char Text.isSpace)
    (.seq (plus (.char isDecimal)) (.seq (.char isMG) newline))))

/-- `parse_gcode_start_byte` -/
def SlicerData.parseGcodeStartByte (d : SlicerData) : Option ℕ := startPattern.find d.header.chars

/-- `parse_gcode_end_byte` -/
def SlicerData.parseGcodeEndByte (d : SlicerData) : Option ℤ :=
  (endPattern.find d.footer.chars.reverse).map fun p : ℕ => (d.size : ℤ) - p

/-! ## What the offsets should be -/

/-- A G or M command. -/
def IsCommand (w : Text) : Prop :=
  ∃ c ds, w = c :: ds ∧ isMG c = true ∧ ds ≠ [] ∧ ∀ d ∈ ds, isDecimal d = true

/-- A line of a window, between two newlines, that starts with a command and white space after
it; that may be the end of the line. -/
def CommandLine (m : Text) : Prop :=
  ∃ l w s r, m = '\n' :: (l ++ ['\n']) ∧ '\n' ∉ l ∧ l ++ ['\n'] = w ++ s :: r ∧ IsCommand w ∧
    Text.isSpace s = true

/-- A stretch of this kind starts at this place of a text. -/
def StartsAt (P : Text → Prop) (w : Text) (i : ℕ) : Prop :=
  ∃ a m b, w = a ++ (m ++ b) ∧ a.length = i ∧ P m

/-- A stretch of this kind ends with that many characters of the text behind it. -/
def EndsAt (P : Text → Prop) (w : Text) (p : ℕ) : Prop :=
  ∃ a m b, w = a ++ (m ++ b) ∧ b.length = p ∧ P m

namespace SlicerData

variable (d : SlicerData)

/-- The first line with a command in the header window starts behind this character. -/
def FirstCommand (i : ℕ) : Prop := IsLeast {j | StartsAt CommandLine d.header.chars j} i

/-- The last line with a command in the footer window has that many characters behind it. -/
def LastCommand (p : ℕ) : Prop := IsLeast {q | EndsAt CommandLine d.footer.chars q} p

/-- The bytes before a character of the header window. -/
def bytesBefore (i : ℕ) : ℕ := ReadText.bytes (d.header.take i)

/-- The bytes of the last characters of the footer window. -/
def bytesBehind (p : ℕ) : ℕ := ReadText.bytes (d.footer.reverse.take p)

end SlicerData

/-- The file is read without an error, and the offsets in it that are reported are that of the
newline before the first line with a command, and that just after the last one. -/
def OffsetsRight (text : Text) : Prop :=
  ∃ d, getSlicer text = some d ∧
    (∀ n, d.parseGcodeStartByte = some n ↔ ∃ i, d.FirstCommand i ∧ d.bytesBefore i = n) ∧
    ∀ n, d.parseGcodeEndByte = some n ↔ ∃ p, d.LastCommand p ∧ (d.size : ℤ) - d.bytesBehind p = n

/-! ## The condition -/

/-- A command, white space, and what stands before the next newline after that. -/
def Matched (m : Text) : Prop :=
  ∃ w s r, m = '\n' :: (w ++ s :: (r ++ ['\n'])) ∧ IsCommand w ∧ Text.isSpace s = true ∧ '\n' ∉ r

namespace SlicerData

variable (d : SlicerData)

/-- There is a newline after the white space of the first command, and every character before it
takes one byte. -/
def StartClear : Prop :=
  ∀ i, d.FirstCommand i → StartsAt Matched d.header.chars i ∧ ∀ x ∈ d.header.take i, x.2 = 1

/-- The last place where a match can end is the end of the last line with a command, and every
character behind it takes one byte; or a match that ends before happens to have as many
characters behind it as there are bytes behind that line. -/
def EndClear : Prop :=
  ∀ p, d.LastCommand p →
    (IsLeast {q | EndsAt Matched d.footer.chars q} p ∧ ∀ x ∈ d.footer.reverse.take p, x.2 = 1) ∨
      ∃ q, p < q ∧ IsLeast {q | EndsAt Matched d.footer.chars q} q ∧ d.bytesBehind p = q

end SlicerData

/-- The footer window of a large file starts with a character, and both windows are clear. -/
structure OffsetsCondition (text : Text) : Prop where
  boundary : readSize * 2 < (encodeUtf8 text).length →
    ∀ b ∈ (encodeUtf8 text)[(encodeUtf8 text).length - readSize]?, continues b = false
  windows : ∀ d, getSlicer text = some d → d.StartClear ∧ d.EndClear

/-! ## What the patterns match -/

theorem accepts_startPattern_iff {m : Text} : startPattern.Accepts m ↔ Matched m := by
  unfold startPattern newline restOfLine
  simp only [accepts_seq_iff, accepts_char_iff, accepts_plus_char_iff, accepts_star_char_iff]
  constructor
  · rintro ⟨_, _, rfl, ⟨n, rfl, hn⟩, _, _, rfl, ⟨c, rfl, hc⟩, ds, _, rfl, hds, _, _, rfl,
      ⟨s, rfl, hs⟩, r, _, rfl, hr, n', rfl, hn'⟩
    obtain rfl := eq_of_beq hn
    obtain rfl := eq_of_beq hn'
    refine ⟨c :: ds, s, r, rfl, ⟨c, ds, rfl, hc, hds.1, hds.2⟩, hs, fun hmem => ?_⟩
    exact absurd rfl (bne_iff_ne.mp (hr _ hmem))
  · rintro ⟨_, s, r, rfl, ⟨c, ds, rfl, hc, hne, hds⟩, hs, hr⟩
    refine ⟨['\n'], _, rfl, ⟨_, rfl, rfl⟩, [c], _, rfl, ⟨c, rfl, hc⟩, ds, _, rfl, ⟨hne, hds⟩, [s],
      _, rfl, ⟨s, rfl, hs⟩, r, ['\n'], rfl, fun x hx => ?_, _, rfl, rfl⟩
    exact bne_iff_ne.mpr fun heq => hr (heq ▸ hx)

theorem accepts_endPattern_iff {m : Text} : endPattern.Accepts m ↔ Matched m.reverse := by
  unfold endPattern newline restOfLine
  simp only [accepts_seq_iff, accepts_char_iff, accepts_plus_char_iff, accepts_star_char_iff]
  constructor
  · rintro ⟨_, _, rfl, ⟨n, rfl, hn⟩, r, _, rfl, hr, _, _, rfl, ⟨s, rfl, hs⟩, ds, _, rfl, hds, _, _,
      rfl, ⟨c, rfl, hc⟩, n', rfl, hn'⟩
    obtain rfl := eq_of_beq hn
    obtain rfl := eq_of_beq hn'
    refine ⟨c :: ds.reverse, s, r.reverse, by simp, ⟨c, ds.reverse, rfl, hc, by simpa using hds.1,
      fun d hd => hds.2 d (List.mem_reverse.mp hd)⟩, hs, fun hmem => ?_⟩
    exact absurd rfl (bne_iff_ne.mp (hr _ (List.mem_reverse.mp hmem)))
  · rintro ⟨_, s, r, hm, ⟨c, ds, rfl, hc, hne, hds⟩, hs, hr⟩
    obtain rfl : m = '\n' :: (r.reverse ++ s :: (ds.reverse ++ [c, '\n'])) := by
      have hrev := congrArg List.reverse hm
      simpa using hrev
    refine ⟨['\n'], _, rfl, ⟨_, rfl, rfl⟩, r.reverse, _, rfl, fun x hx => ?_, [s], _, rfl,
      ⟨s, rfl, hs⟩, ds.reverse, _, rfl, ⟨by simpa using hne, fun d hd => ?_⟩, [c], _, rfl,
      ⟨c, rfl, hc⟩, _, rfl, rfl⟩
    · exact bne_iff_ne.mpr fun heq => hr (heq ▸ List.mem_reverse.mp hx)
    · exact hds d (List.mem_reverse.mp hd)

theorem parseGcodeStartByte_eq_some_iff {d : SlicerData} {n : ℕ} :
    d.parseGcodeStartByte = some n ↔ IsLeast {j | StartsAt Matched d.header.chars j} n := by
  unfold SlicerData.parseGcodeStartByte
  rw [Regex.find_eq_some_iff]
  simp only [Occurs, accepts_startPattern_iff, StartsAt]

theorem occurs_endPattern_iff {w : Text} {p : ℕ} :
    endPattern.Occurs w.reverse p ↔ EndsAt Matched w p := by
  constructor
  · rintro ⟨a, m, b, hw, hlength, hm⟩
    refine ⟨b.reverse, m.reverse, a.reverse, ?_, ?_, accepts_endPattern_iff.mp hm⟩
    · have hrev := congrArg List.reverse hw
      simpa using hrev
    · rw [List.length_reverse, hlength]
  · rintro ⟨a, m, b, rfl, hlength, hm⟩
    refine ⟨b.reverse, m.reverse, a.reverse, by simp, ?_, accepts_endPattern_iff.mpr ?_⟩
    · rw [List.length_reverse, hlength]
    · rw [List.reverse_reverse]
      exact hm

theorem parseGcodeEndByte_eq_some_iff {d : SlicerData} {n : ℤ} :
    d.parseGcodeEndByte = some n ↔
      ∃ p, IsLeast {q | EndsAt Matched d.footer.chars q} p ∧ (d.size : ℤ) - p = n := by
  unfold SlicerData.parseGcodeEndByte
  have hfind (p : ℕ) : endPattern.find d.footer.chars.reverse = some p ↔
      IsLeast {q | EndsAt Matched d.footer.chars q} p := by
    rw [Regex.find_eq_some_iff]
    simp only [occurs_endPattern_iff]
  rw [Option.map_eq_some_iff]
  exact exists_congr fun p => and_congr_left fun _ => hfind p

/-! ## First places -/

/-- A first place in one set that is numbered on, against that in another set. -/
theorem isLeast_iff_numbered {A M : Set ℕ} {f : ℕ → ℕ} (hf : ∀ i ∈ A, i ≤ f i)
    (hM : M.Nonempty → A.Nonempty) :
    (∀ n, IsLeast M n ↔ ∃ i, IsLeast A i ∧ f i = n) ↔
      ∀ i, IsLeast A i → (IsLeast M i ∧ f i = i) ∨ ∃ j, i < j ∧ IsLeast M j ∧ f i = j := by
  constructor
  · intro h i hi
    have hleast : IsLeast M (f i) := (h (f i)).mpr ⟨i, hi, rfl⟩
    rcases (hf i hi.1).eq_or_lt with heq | hlt
    · exact Or.inl ⟨heq ▸ hleast, heq.symm⟩
    · exact Or.inr ⟨f i, hlt, hleast, rfl⟩
  · intro h n
    have hnumbered {i : ℕ} (hi : IsLeast A i) : IsLeast M (f i) := by
      rcases h i hi with ⟨hleast, heq⟩ | ⟨j, -, hleast, rfl⟩
      · rwa [heq]
      · exact hleast
    constructor
    · intro hn
      obtain ⟨i, hi⟩ : ∃ i, IsLeast A i := by
        classical exact ⟨_, (hM ⟨n, hn.1⟩).isLeast_natFind⟩
      exact ⟨i, hi, (hnumbered hi).unique hn⟩
    · rintro ⟨i, hi, rfl⟩
      exact hnumbered hi

/-! ## Bytes and characters -/

/-- Every character takes a byte at least. -/
def ReadText.Sized (w : ReadText) : Prop := ∀ x ∈ w, 1 ≤ x.2

theorem ReadText.length_le_bytes {w : ReadText} (h : w.Sized) : w.length ≤ w.bytes := by
  induction w with
  | nil => exact Nat.zero_le _
  | cons x w ih =>
    obtain ⟨hx, hw⟩ := List.forall_mem_cons.mp h
    have hle := ih hw
    rw [ReadText.bytes, List.length_cons]
    omega

theorem ReadText.bytes_eq_length_iff {w : ReadText} (h : w.Sized) :
    w.bytes = w.length ↔ ∀ x ∈ w, x.2 = 1 := by
  induction w with
  | nil => exact iff_of_true rfl (List.forall_mem_nil _)
  | cons x w ih =>
    obtain ⟨hx, hw⟩ := List.forall_mem_cons.mp h
    have hle := ReadText.length_le_bytes hw
    rw [List.forall_mem_cons, ← ih hw]
    rw [ReadText.bytes, List.length_cons]
    omega

theorem readText_sized (t : Text) : (readText t).Sized := by
  induction t using readText.induct with
  | case1 => exact List.forall_mem_nil _
  | case2 t ih => exact List.forall_mem_cons.mpr ⟨Nat.le_succ 1, ih⟩
  | case3 c t hne ih =>
    rw [readText]
    · exact List.forall_mem_cons.mpr ⟨c.utf8Size_pos, ih⟩
    · exact hne

theorem ReadText.Sized.take {w : ReadText} (h : w.Sized) (n : ℕ) :
    ReadText.Sized (w.take n) := fun x hx => h x (List.mem_of_mem_take hx)

theorem ReadText.Sized.reverse {w : ReadText} (h : w.Sized) : ReadText.Sized w.reverse :=
  fun x hx => h x (List.mem_reverse.mp hx)

/-! ## Lines and matches -/

theorem IsCommand.newline_not_mem {w : Text} (h : IsCommand w) : '\n' ∉ w := by
  obtain ⟨c, ds, rfl, hc, -, hds⟩ := h
  intro hmem
  rcases List.mem_cons.mp hmem with rfl | hmem
  · cases hc
  · exact absurd (hds _ hmem) (by decide)

theorem StartsAt.commandLine {w : Text} {i : ℕ} (h : StartsAt Matched w i) :
    StartsAt CommandLine w i := by
  obtain ⟨a, _, b, rfl, hlength, w, s, r, rfl, hw, hs, hr⟩ := h
  by_cases hnewline : s = '\n'
  · subst hnewline
    refine ⟨a, '\n' :: (w ++ ['\n']), r ++ '\n' :: b, by simp, hlength, w, w, '\n', [], rfl,
      hw.newline_not_mem, rfl, hw, hs⟩
  · refine ⟨a, _, b, rfl, hlength, w ++ s :: r, w, s, r ++ ['\n'], by simp, ?_, by simp, hw, hs⟩
    intro hmem
    rcases List.mem_append.mp hmem with hmem | hmem
    · exact hw.newline_not_mem hmem
    · exact (List.mem_cons.mp hmem).elim (fun heq => hnewline heq.symm) hr

theorem EndsAt.exists_startsAt {P : Text → Prop} {w : Text} {p : ℕ} (h : EndsAt P w p) :
    ∃ i, StartsAt P w i := by
  obtain ⟨a, m, b, hw, -, hm⟩ := h
  exact ⟨a.length, a, m, b, hw, rfl, hm⟩

theorem StartsAt.exists_endsAt {P : Text → Prop} {w : Text} {i : ℕ} (h : StartsAt P w i) :
    ∃ p, EndsAt P w p := by
  obtain ⟨a, m, b, hw, -, hm⟩ := h
  exact ⟨b.length, a, m, b, hw, rfl, hm⟩

theorem EndsAt.le_length {P : Text → Prop} {w : Text} {p : ℕ} (h : EndsAt P w p) :
    p ≤ w.length := by
  obtain ⟨a, m, b, rfl, rfl, -⟩ := h
  simp only [List.length_append]
  omega

theorem StartsAt.le_length {P : Text → Prop} {w : Text} {i : ℕ} (h : StartsAt P w i) :
    i ≤ w.length := by
  obtain ⟨a, m, b, rfl, rfl, -⟩ := h
  simp only [List.length_append]
  omega

/-- A line with a command starts a match, unless no later match starts either. -/
theorem startsAt_matched_of_lt {w : Text} {i j : ℕ} (h : StartsAt CommandLine w i) (hij : i < j)
    (hj : StartsAt Matched w j) : StartsAt Matched w i := by
  obtain ⟨a, _, b, rfl, rfl, l, c, s, r, rfl, hl, hlr, hc, hs⟩ := h
  -- what stands after the white space of the command
  obtain ⟨r', hr', hrest⟩ | hrest : (∃ r', '\n' ∉ r' ∧ ∃ b', r ++ b = r' ++ '\n' :: b') ∨
      '\n' ∉ r ++ b := by
    by_cases hmem : '\n' ∈ r ++ b
    · obtain ⟨r', b', heq, hr'⟩ := List.eq_append_cons_of_mem hmem
      exact Or.inl ⟨r', hr', b', heq⟩
    · exact Or.inr hmem
  · obtain ⟨b', hrest⟩ := hrest
    refine ⟨a, _, b', ?_, rfl, c, s, r', rfl, hc, hs, hr'⟩
    have hline : l ++ '\n' :: b = c ++ s :: (r' ++ '\n' :: b') := by
      rw [← hrest, ← List.cons_append, ← List.append_assoc, ← hlr]
      simp
    simp [hline]
  · -- only one newline is left behind the first, and a match takes two
    exfalso
    have hline : l ++ '\n' :: b = c ++ s :: (r ++ b) := by
      rw [← List.cons_append, ← List.append_assoc, ← hlr]
      simp
    obtain ⟨a', m, b', heq, rfl, c', s', r', rfl, -⟩ := hj
    have hdrop : l ++ '\n' :: b =
        a'.drop (a.length + 1) ++ ('\n' :: (c' ++ s' :: (r' ++ ['\n'])) ++ b') := by
      have h := congrArg (List.drop (a.length + 1)) heq
      rw [List.drop_append_of_le_length hij] at h
      simpa using h
    have htwo := congrArg (List.count '\n') (hline.symm.trans hdrop)
    rw [List.count_append, List.count_eq_zero_of_not_mem hc.newline_not_mem, List.count_cons,
      List.count_eq_zero_of_not_mem hrest] at htwo
    simp only [List.count_append, List.cons_append, List.count_cons_self, List.count_cons] at htwo
    split at htwo <;> omega

/-! ## The windows -/

theorem sliceFrom_sublist {α : Type} (l : List α) (k : ℤ) : (sliceFrom l k).Sublist l :=
  List.drop_sublist _ _

theorem getSlicer_sized {text : Text} {d : SlicerData} (h : getSlicer text = some d) :
    d.header.Sized ∧ d.footer.Sized := by
  have hread := readText_sized text
  unfold getSlicer at h
  dsimp only at h
  split at h
  · obtain ⟨s, -, rfl⟩ := Option.map_eq_some_iff.mp h
    exact ⟨hread.take _, readText_sized _⟩
  · split at h
    · obtain rfl := Option.some.inj h
      refine ⟨hread.take _, fun x hx => ?_⟩
      rcases List.mem_append.mp hx with hx | hx
      · exact hread.take _ x ((sliceFrom_sublist _ _).subset hx)
      · exact hread x (List.mem_of_mem_drop hx)
    · obtain rfl := Option.some.inj h
      exact ⟨hread.take _, hread.take _⟩

theorem getSlicer_isSome_iff (text : Text) :
    (getSlicer text).isSome = true ↔ (readSize * 2 < (encodeUtf8 text).length →
      ∀ b ∈ (encodeUtf8 text)[(encodeUtf8 text).length - readSize]?, continues b = false) := by
  unfold getSlicer
  dsimp only
  split
  case isTrue hlarge =>
    rw [Option.isSome_map, decodeUtf8_drop_isSome_iff]
    exact ⟨fun h _ => h, fun h => h hlarge⟩
  case isFalse hsmall =>
    refine iff_of_true ?_ fun hlarge => absurd hlarge hsmall
    split <;> rfl

namespace SlicerData

variable {d : SlicerData}

/-- The offset of the first command is right in a header window that is clear. -/
theorem start_iff (h : d.header.Sized) :
    (∀ n, d.parseGcodeStartByte = some n ↔ ∃ i, d.FirstCommand i ∧ d.bytesBefore i = n) ↔
      d.StartClear := by
  simp only [parseGcodeStartByte_eq_some_iff]
  have hlength {i : ℕ} (hi : i ≤ d.header.chars.length) : (d.header.take i).length = i := by
    rw [ReadText.chars, List.length_map] at hi
    exact List.length_take_of_le hi
  refine (isLeast_iff_numbered (f := d.bytesBefore) (fun i hi => ?_) ?_).trans ?_
  · exact (hlength hi.le_length).symm.le.trans (ReadText.length_le_bytes (h.take i))
  · exact fun ⟨j, hj⟩ => ⟨j, StartsAt.commandLine hj⟩
  · refine forall_congr' fun i => forall_congr' fun hi => ?_
    have hsingle : d.bytesBefore i = i ↔ ∀ x ∈ d.header.take i, x.2 = 1 := by
      rw [← ReadText.bytes_eq_length_iff (h.take i), hlength hi.1.le_length]
      rfl
    rw [hsingle]
    constructor
    · rintro (⟨hleast, hone⟩ | ⟨j, hij, hleast, hbytes⟩)
      · exact ⟨hleast.1, hone⟩
      · have hmatch := startsAt_matched_of_lt hi.1 hij hleast.1
        exact absurd (hleast.2 hmatch) (Nat.not_le.mpr hij)
    · rintro ⟨hmatch, hone⟩
      exact Or.inl ⟨⟨hmatch, fun j hj => hi.2 (StartsAt.commandLine hj)⟩, hone⟩

/-- The offset behind the last command is right in a footer window that is clear. -/
theorem end_iff (h : d.footer.Sized) :
    (∀ n, d.parseGcodeEndByte = some n ↔
      ∃ p, d.LastCommand p ∧ (d.size : ℤ) - d.bytesBehind p = n) ↔ d.EndClear := by
  simp only [parseGcodeEndByte_eq_some_iff]
  have hbehind : (∀ n : ℤ,
        (∃ p, IsLeast {q | EndsAt Matched d.footer.chars q} p ∧ (d.size : ℤ) - p = n) ↔
          ∃ p, d.LastCommand p ∧ (d.size : ℤ) - d.bytesBehind p = n) ↔
      ∀ n, IsLeast {q | EndsAt Matched d.footer.chars q} n ↔
        ∃ p, d.LastCommand p ∧ d.bytesBehind p = n := by
    constructor
    · intro hall n
      constructor
      · intro hn
        obtain ⟨p, hp, heq⟩ := (hall (d.size - n)).mp ⟨n, hn, rfl⟩
        exact ⟨p, hp, by omega⟩
      · rintro ⟨p, hp, rfl⟩
        obtain ⟨n, hn, heq⟩ := (hall _).mpr ⟨p, hp, rfl⟩
        obtain rfl : n = d.bytesBehind p := by omega
        exact hn
    · intro hall z
      simp only [hall]
      constructor
      · rintro ⟨n, ⟨p, hp, rfl⟩, hz⟩
        exact ⟨p, hp, hz⟩
      · rintro ⟨p, hp, hz⟩
        exact ⟨_, ⟨p, hp, rfl⟩, hz⟩
  rw [hbehind]
  have hlength {p : ℕ} (hp : p ≤ d.footer.chars.length) :
      (d.footer.reverse.take p).length = p := by
    rw [ReadText.chars, List.length_map] at hp
    rw [List.length_take_of_le (hp.trans List.length_reverse.symm.le)]
  refine (isLeast_iff_numbered (f := d.bytesBehind) (fun p hp => ?_) ?_).trans ?_
  · exact (hlength hp.le_length).symm.le.trans (ReadText.length_le_bytes (h.reverse.take p))
  · rintro ⟨q, hq⟩
    obtain ⟨i, hi⟩ := hq.exists_startsAt
    obtain ⟨p, hp⟩ := (StartsAt.commandLine hi).exists_endsAt
    exact ⟨p, hp⟩
  · refine forall_congr' fun p => forall_congr' fun hp => or_congr (and_congr_right fun _ => ?_) ?_
    · rw [← ReadText.bytes_eq_length_iff (h.reverse.take p), hlength hp.1.le_length]
      rfl
    · rfl

end SlicerData

/-- The offsets are right exactly where the file meets the condition. -/
theorem offsetsRight_iff (text : Text) : OffsetsRight text ↔ OffsetsCondition text := by
  constructor
  · rintro ⟨d, hd, hstart, hend⟩
    obtain ⟨hheader, hfooter⟩ := getSlicer_sized hd
    refine ⟨(getSlicer_isSome_iff text).mp (Option.isSome_iff_exists.mpr ⟨d, hd⟩),
      fun d' hd' => ?_⟩
    obtain rfl := Option.some.inj (hd.symm.trans hd')
    exact ⟨(SlicerData.start_iff hheader).mp hstart, (SlicerData.end_iff hfooter).mp hend⟩
  · rintro ⟨hboundary, hwindows⟩
    obtain ⟨d, hd⟩ := Option.isSome_iff_exists.mp ((getSlicer_isSome_iff text).mpr hboundary)
    obtain ⟨hheader, hfooter⟩ := getSlicer_sized hd
    obtain ⟨hstart, hend⟩ := hwindows d hd
    exact ⟨d, hd, (SlicerData.start_iff hheader).mpr hstart,
      (SlicerData.end_iff hfooter).mpr hend⟩

/-! ## A character of two bytes -/

/-- A comment with `é`, and a move. -/
def accentText : Text := [';', 'é', '\n', 'G', '1', ' ', 'X', '1', '\n']

/-- What is read of it. -/
def accentRead : ReadText :=
  [(';', 1), ('é', 2), ('\n', 1), ('G', 1), ('1', 1), (' ', 1), ('X', 1), ('1', 1), ('\n', 1)]

/-- The start is reported at byte 2, but the newline before the move is byte 3. -/
theorem accent_offsets_wrong : ¬ OffsetsRight accentText := by
  rintro ⟨d, hd, hstart, -⟩
  have hread : getSlicer accentText = some ⟨accentRead, accentRead, 10⟩ := by decide +kernel
  obtain rfl := Option.some.inj (hread.symm.trans hd)
  have hfound : startPattern.find accentRead.chars = some 2 := by decide
  obtain ⟨i, hi, hbytes⟩ := (hstart 2).mp hfound
  have hnone : ∀ j < 10, ReadText.bytes (accentRead.take j) ≠ 2 := by decide
  exact hnone i (Nat.lt_succ_of_le hi.1.le_length) hbytes

end FlsunT1.Moonraker
