/-
  Moonraker/PanelDueInput.lean --- the lines that are read from the PanelDue
  (moonraker/components/paneldue.py).
-/
import Mathlib.Data.List.DropRight
import Mathlib.Data.List.Forall2
import Mathlib.Data.List.Infix
import FlsunT1.Library.Decimal
import FlsunT1.Library.Instances
import FlsunT1.Library.Utf8

set_option autoImplicit false

namespace FlsunT1.Moonraker.PanelDue

open Library

/-! ## Texts and bytes -/

/-- `l.strip(..)` -/
def stripBy {α : Type} (p : α → Bool) (l : List α) : List α := (l.dropWhile p).rdropWhile p

/-- White space of `bytes.strip`. -/
def isByteSpace (b : UInt8) : Bool := b == 0x20 || (0x09 ≤ b && b ≤ 0x0d)

/-- `t.find(c)` -/
def find (c : Char) (t : Text) : ℤ :=
  if c ∈ t then (t.takeWhile fun x => !(x == c)).length else -1

/-- `t.rfind(c)` -/
def rfind (c : Char) (t : Text) : ℤ :=
  if c ∈ t then t.length - 1 - (t.reverse.takeWhile fun x => !(x == c)).length else -1

/-- Where an index of a slice points to. -/
def sliceIndex (n : ℕ) (k : ℤ) : ℕ := if k < 0 then (n + k).toNat else k.toNat

/-- `t[i:j]` -/
def slice (t : Text) (i j : ℤ) : Text :=
  (t.take (sliceIndex t.length j)).drop (sliceIndex t.length i)

/-! ## The lines -/

/-- What `process_line` comes to, before the script is looked at. -/
inductive LineOutcome
  | emergencyStop
  /-- `PanelDueError` -/
  | raises (msg : String)
  /-- `parts[0]`, of a script without words -/
  | indexError
  | executes (script : Text)
  deriving DecidableEq

/-- `"M112" in line.upper()`: no other character has one of these as its upper case. -/
def mentionsM112 (line : Text) : Bool := decide ("M112".toList <:+: line.map Char.toUpper)

/-- The text of the errors. -/
def invalidChecksum (lineNo : Option ℤ) : String :=
  match lineNo with
  | none => "!! Invalid Checksum"
  | some lineNo => "!! Invalid Checksum" ++ " Line Number: " ++ toString lineNo

/-- `calculated_cs` -/
def calculatedCs (t : Text) : ℕ := t.foldl (fun cs c => cs ^^^ c.toNat) 0

/-- `parts[0]` of the script, and what follows. -/
def execute (script : Text) : LineOutcome :=
  if ∀ c ∈ script, Text.isSpace c = true then .indexError else .executes script

/-- `process_line` -/
def processLine (enableChecksum : Bool) (line : Text) : LineOutcome :=
  if mentionsM112 line then .emergencyStop
  else if enableChecksum then
    let lineIndex := find ' ' line
    let lineNo := Text.readInt (slice line 1 lineIndex)
    let lineIndex := if lineNo.isNone then -1 else lineIndex
    let csIndex := rfind '*' line
    match Text.readInt (slice line (csIndex + 1) line.length) with
    | none => .raises (invalidChecksum lineNo)
    | some checksum =>
      if ((calculatedCs (slice line 0 csIndex) &&& 0xff : ℕ) : ℤ) ≠ checksum then
        .raises (invalidChecksum lineNo)
      else execute (slice line (lineIndex + 1) csIndex)
  else execute line

/-- The part of `SerialConnection` that reads, with the lines that were processed. -/
structure SerialInput where
  isOpen : Bool
  partialInput : List UInt8
  processed : List (Text × LineOutcome)

def SerialInput.init : SerialInput where
  isOpen := true
  partialInput := []
  processed := []

/-- `line.strip().decode('utf-8', 'ignore')` -/
def decodeLine (line : List UInt8) : Text := decodeIgnore (stripBy isByteSpace line)

/-- `_handle_incoming`, with what `os.read` returns. -/
def handleIncoming (enableChecksum : Bool) (s : SerialInput) (data : List UInt8) : SerialInput :=
  if s.isOpen = false then s
  else if data = [] then { s with isOpen := false, partialInput := [] }
  else
    let lines := ((stripBy (· == 0) data).splitOn 0x0a).modifyHead (s.partialInput ++ ·)
    { s with
      partialInput := lines.getLastD []
      processed := s.processed ++ lines.dropLast.map fun line =>
        (decodeLine line, processLine enableChecksum (decodeLine line)) }

/-! ## Framed scripts -/

/-- A script with its line number and the checksum that is sent. -/
structure Frame where
  number : ℕ
  script : Text
  checksum : ℕ
  unbroken : ∀ c ∈ script, c.toNat ≠ 0x0a ∧ c.toNat ≠ 0

namespace Frame

/-- What the checksum covers. -/
def covered (f : Frame) : Text := 'N' :: Nat.toDigits 10 f.number ++ ' ' :: f.script

def line (f : Frame) : Text := f.covered ++ '*' :: Nat.toDigits 10 f.checksum

/-- The checksum is the exclusive or of the bytes before it. -/
def Right (f : Frame) : Prop :=
  f.checksum = ((encodeUtf8 f.covered).foldl (fun cs b => cs ^^^ b) 0).toNat

instance (f : Frame) : Decidable f.Right := inferInstanceAs (Decidable (_ = _))

/-- The lowest byte of the exclusive or of the characters. -/
def charSum (f : Frame) : ℕ := calculatedCs f.covered &&& 0xff

end Frame

/-- Frames, each after a number of null bytes, and null bytes after the last. -/
def stream (frames : List (ℕ × Frame)) (nulls : ℕ) : List UInt8 :=
  (frames.flatMap fun x => List.replicate x.1 0 ++ encodeUtf8 x.2.line ++ [0x0a]) ++
    List.replicate nulls 0

/-- A way of reading a stream: each read returns at least a byte and no more than it asked for. -/
structure Cut (reads : List (List UInt8)) (bytes : List UInt8) : Prop where
  flatten : reads.flatten = bytes
  nonempty : ∀ data ∈ reads, data ≠ []
  length_le : ∀ data ∈ reads, data.length ≤ 4096

/-- Each line was processed once and in order; those with the right checksum gave their script,
those with another one, if they do not mention `M112`, an error. -/
def Delivered (frames : List Frame) (processed : List (Text × LineOutcome)) : Prop :=
  List.Forall₂ (fun f x => x.1 = f.line ∧ (f.Right → x.2 = .executes f.script) ∧
    (¬ f.Right → mentionsM112 f.line = false → ∃ msg, x.2 = .raises msg)) frames processed

/-! ## A framed line is taken apart -/

theorem find_append {c : Char} {a : Text} (h : c ∉ a) (b : Text) :
    find c (a ++ c :: b) = a.length := by
  have htake : (a ++ c :: b).takeWhile (fun x => !(x == c)) = a := by
    rw [List.takeWhile_append_of_pos, List.takeWhile_cons_of_neg (by simp), List.append_nil]
    intro x hx
    have hne : x ≠ c := by
      rintro rfl
      exact h hx
    simp [hne]
  rw [find, if_pos (by simp), htake]

theorem rfind_append (a : Text) {c : Char} {b : Text} (h : c ∉ b) :
    rfind c (a ++ c :: b) = a.length := by
  have htake : (a ++ c :: b).reverse.takeWhile (fun x => !(x == c)) = b.reverse := by
    rw [List.reverse_append, List.reverse_cons, List.append_assoc, List.singleton_append,
      List.takeWhile_append_of_pos, List.takeWhile_cons_of_neg (by simp), List.append_nil]
    intro x hx
    have hne : x ≠ c := by
      rintro rfl
      exact h (List.mem_reverse.mp hx)
    simp [hne]
  rw [rfind, if_pos (by simp), htake]
  simp
  omega

theorem slice_append (a b c : Text) {i j : ℤ} (hi : i = a.length)
    (hj : j = a.length + b.length) : slice (a ++ b ++ c) i j = b := by
  have hi' : sliceIndex (a ++ b ++ c).length i = a.length := by
    rw [sliceIndex, hi, if_neg (by omega), Int.toNat_natCast]
  have hj' : sliceIndex (a ++ b ++ c).length j = (a ++ b).length := by
    rw [sliceIndex, hj, if_neg (by omega), List.length_append]
    omega
  rw [slice, hi', hj', List.take_left, List.drop_left]

namespace Frame

variable (f : Frame)

theorem isDigit_of_mem {n : ℕ} {c : Char} (h : c ∈ Nat.toDigits 10 n) : c.isDigit = true :=
  Nat.isDigit_of_mem_toDigits (by decide) (by decide) h

/-- What the code reads in a line. -/
theorem processLine_line (enableChecksum : Bool) :
    processLine enableChecksum f.line =
      if mentionsM112 f.line then .emergencyStop
      else if enableChecksum then
        if f.charSum = f.checksum then execute f.script
        else .raises (invalidChecksum (some (f.number : ℤ)))
      else .executes f.line := by
  have hindex : find ' ' f.line = ('N' :: Nat.toDigits 10 f.number).length := by
    have hspace : ' ' ∉ 'N' :: Nat.toDigits 10 f.number := by
      intro hmem
      rcases List.mem_cons.mp hmem with heq | hmem
      · cases heq
      · cases isDigit_of_mem hmem
    have h := find_append hspace (f.script ++ '*' :: Nat.toDigits 10 f.checksum)
    rw [← h, line, covered, List.append_assoc]
    rfl
  have hcs : rfind '*' f.line = f.covered.length := by
    apply rfind_append
    intro hmem
    cases isDigit_of_mem hmem
  have hnumber : slice f.line 1 (find ' ' f.line) = Nat.toDigits 10 f.number := by
    have h := slice_append ['N'] (Nat.toDigits 10 f.number)
      (' ' :: f.script ++ '*' :: Nat.toDigits 10 f.checksum) (i := 1) (j := find ' ' f.line) rfl
      (by rw [hindex]; simp; omega)
    rw [← h, line, covered]
    simp
  have hchecksum : slice f.line (rfind '*' f.line + 1) f.line.length =
      Nat.toDigits 10 f.checksum := by
    have h := slice_append (f.covered ++ ['*']) (Nat.toDigits 10 f.checksum) []
      (i := rfind '*' f.line + 1) (j := f.line.length) (by rw [hcs]; simp)
      (by rw [line]; simp; omega)
    rw [← h, line]
    simp
  have hcovered : slice f.line 0 (rfind '*' f.line) = f.covered :=
    slice_append [] f.covered ('*' :: Nat.toDigits 10 f.checksum) rfl (by rw [hcs]; simp)
  have hscript : slice f.line (find ' ' f.line + 1) (rfind '*' f.line) = f.script := by
    have h := slice_append ('N' :: Nat.toDigits 10 f.number ++ [' ']) f.script
      ('*' :: Nat.toDigits 10 f.checksum) (i := find ' ' f.line + 1) (j := rfind '*' f.line)
      (by rw [hindex]; simp) (by rw [hcs, covered]; simp; omega)
    rw [← h, line, covered]
    simp
  have hline : execute f.line = .executes f.line := by
    apply if_neg
    intro h
    have hn := h 'N' (by simp [line, covered])
    cases hn
  unfold processLine
  dsimp only
  rw [hnumber, Text.readInt_toDigits, hchecksum, Text.readInt_toDigits, hcovered]
  simp only [Option.isNone_some, Bool.false_eq_true, if_false, hscript, hline]
  split
  · rfl
  · split
    · rw [charSum]
      simp only [ne_eq, Int.natCast_inj, ite_not]
    · rfl

/-- Whether a line is treated as its checksum says. -/
theorem processed_iff (enableChecksum : Bool) :
    ((f.Right → processLine enableChecksum f.line = .executes f.script) ∧
      (¬ f.Right → mentionsM112 f.line = false →
        ∃ msg, processLine enableChecksum f.line = .raises msg)) ↔
    ((f.Right → mentionsM112 f.line = false ∧ enableChecksum = true ∧ f.charSum = f.checksum ∧
        ∃ c ∈ f.script, Text.isSpace c = false) ∧
      (¬ f.Right → mentionsM112 f.line = false →
        enableChecksum = true ∧ f.charSum ≠ f.checksum)) := by
  have hlength : f.line ≠ f.script := by
    intro h
    have hlen := congrArg List.length h
    simp [line, covered] at hlen
    omega
  have hexecutes : execute f.script = .executes f.script ↔
      ∃ c ∈ f.script, Text.isSpace c = false := by
    unfold execute
    split <;> simp_all
  have hraises : ¬ ∃ msg, execute f.script = .raises msg := by
    unfold execute
    split <;> simp
  rw [processLine_line]
  apply and_congr
  · apply imp_congr_right
    intro _
    cases mentionsM112 f.line <;> cases enableChecksum <;>
      by_cases hsum : f.charSum = f.checksum <;> simp [hsum, hlength, hexecutes]
  · apply imp_congr_right
    intro _
    cases mentionsM112 f.line <;> cases enableChecksum <;>
      by_cases hsum : f.charSum = f.checksum <;> simp [hsum, hraises]

end Frame

/-! ## The reads -/

/-- The state after bytes that are kept. -/
def received (enableChecksum : Bool) (bytes : List UInt8) : SerialInput where
  isOpen := true
  partialInput := tailOf 0x0a bytes
  processed := (linesOf 0x0a bytes).map fun line =>
    (decodeLine line, processLine enableChecksum (decodeLine line))

theorem handleIncoming_received (enableChecksum : Bool) (bytes : List UInt8) {data : List UInt8}
    (h : data ≠ []) : handleIncoming enableChecksum (received enableChecksum bytes) data =
      received enableChecksum (bytes ++ stripBy (· == 0) data) := by
  obtain ⟨hlines, htail⟩ : linesOf (0x0a : UInt8) (bytes ++ stripBy (· == 0) data) = _ ∧
      tailOf (0x0a : UInt8) (bytes ++ stripBy (· == 0) data) = _ :=
    linesOf_append_tail bytes (stripBy (· == 0) data)
  unfold handleIncoming received
  dsimp only
  rw [if_neg (by decide), if_neg h, ← splitOn_append (not_mem_tailOf bytes), hlines, htail,
    List.map_append]
  rfl

/-- The bytes that are kept of the reads. -/
def kept (reads : List (List UInt8)) : List UInt8 := reads.flatMap (stripBy (· == 0))

theorem foldl_handleIncoming (enableChecksum : Bool) {reads : List (List UInt8)}
    (h : ∀ data ∈ reads, data ≠ []) :
    reads.foldl (handleIncoming enableChecksum) .init = received enableChecksum (kept reads) := by
  suffices ∀ bytes, reads.foldl (handleIncoming enableChecksum) (received enableChecksum bytes) =
      received enableChecksum (bytes ++ kept reads) from this []
  induction reads with
  | nil =>
    intro bytes
    rw [kept, List.flatMap_nil, List.append_nil, List.foldl_nil]
  | cons data reads ih =>
    intro bytes
    rw [List.foldl_cons, handleIncoming_received _ _ (h data List.mem_cons_self),
      ih (fun data hdata => h data (List.mem_cons_of_mem _ hdata)), kept, kept, List.flatMap_cons,
      List.append_assoc]

/-! ## Null bytes -/

theorem stripBy_filter {α : Type} (p : α → Bool) (l : List α) :
    (stripBy p l).filter (fun a => !p a) = l.filter fun a => !p a := by
  have hdrop (l : List α) : (l.dropWhile p).filter (fun a => !p a) = l.filter fun a => !p a := by
    induction l with
    | nil => rfl
    | cons a l ih =>
      rw [List.dropWhile_cons]
      split
      · rename_i ha
        rw [ih, List.filter_cons_of_neg (by simp [ha])]
      · rfl
  rw [stripBy, List.rdropWhile, List.filter_reverse, hdrop, ← List.filter_reverse,
    List.reverse_reverse, hdrop]

theorem mem_stripBy {α : Type} {p : α → Bool} {l : List α} {a : α} (hp : p a = false) :
    a ∈ stripBy p l ↔ a ∈ l := by
  have h := congrArg (a ∈ ·) (stripBy_filter p l)
  simpa [hp] using h

theorem stripBy_eq_self {α : Type} {p : α → Bool} {l : List α} (hhead : ∀ a ∈ l.head?, p a = false)
    (hlast : ∀ a ∈ l.getLast?, p a = false) : stripBy p l = l := by
  have hdrop {l : List α} (h : ∀ a ∈ l.head?, p a = false) : l.dropWhile p = l := by
    cases l with
    | nil => rfl
    | cons a l => exact List.dropWhile_cons_of_neg (by simp [h a rfl])
  rw [stripBy, hdrop hhead, List.rdropWhile, hdrop, List.reverse_reverse]
  intro a ha
  rw [List.head?_reverse] at ha
  exact hlast a ha

theorem getLast?_kept (reads : List (List UInt8)) : (kept reads).getLast? ≠ some 0 := by
  induction reads with
  | nil => simp [kept]
  | cons data reads ih =>
    have hlast : (stripBy (· == 0) data).getLast? ≠ some 0 := by
      intro h
      have hnot := List.rdropWhile_last_not (· == (0 : UInt8)) (data.dropWhile (· == 0))
        (List.ne_nil_of_mem (List.mem_of_getLast? h))
      rw [stripBy, List.getLast?_eq_some_getLast
        (List.ne_nil_of_mem (List.mem_of_getLast? h))] at h
      rw [Option.some.inj h] at hnot
      exact hnot rfl
    rw [kept, List.flatMap_cons, List.getLast?_append]
    change ((kept reads).getLast?.or _) ≠ _
    cases h : (kept reads).getLast? with
    | none => simpa using hlast
    | some b => simpa [h] using ih

theorem Frame.line_unbroken (f : Frame) : ∀ c ∈ f.line, c.toNat ≠ 0x0a ∧ c.toNat ≠ 0 := by
  intro c hc
  have hdigit {n : ℕ} (h : c ∈ Nat.toDigits 10 n) : c.toNat ≠ 0x0a ∧ c.toNat ≠ 0 := by
    have hd := isDigit_of_mem h
    unfold Char.isDigit at hd
    rw [Bool.and_eq_true, decide_eq_true_eq] at hd
    have hlow : 48 ≤ c.toNat := hd.1
    omega
  simp only [line, covered, List.cons_append, List.append_assoc, List.mem_cons,
    List.mem_append] at hc
  rcases hc with rfl | hc | rfl | hc | rfl | hc
  · decide
  · exact hdigit hc
  · decide
  · exact f.unbroken c hc
  · decide
  · exact hdigit hc

theorem Frame.not_mem_line (f : Frame) {b : UInt8} (hb : b = 0x0a ∨ b = 0) :
    b ∉ encodeUtf8 f.line := by
  intro h
  obtain ⟨c, hc, hbyte⟩ := List.mem_flatMap.mp h
  have hline := f.line_unbroken c hc
  rcases hb with rfl | rfl
  · exact hline.1 (mem_utf8EncodeChar (by decide) hbyte)
  · exact hline.2 (mem_utf8EncodeChar (by decide) hbyte)

/-- What is kept has the lines of the stream, as far as they are not null bytes. -/
theorem filter_kept {frames : List (ℕ × Frame)} {nulls : ℕ} {reads : List (List UInt8)}
    (h : reads.flatten = stream frames nulls) :
    (kept reads).filter (fun b => !(b == 0)) =
      joinLines 0x0a (frames.map fun x => encodeUtf8 x.2.line) := by
  have hnull (n : ℕ) : (List.replicate n (0 : UInt8)).filter (fun b => !(b == 0)) = [] := by
    simp
  have hline (f : Frame) :
      (encodeUtf8 f.line).filter (fun b => !(b == 0)) = encodeUtf8 f.line := by
    rw [List.filter_eq_self]
    intro b hb
    have hne : b ≠ 0 := by
      rintro rfl
      exact f.not_mem_line (Or.inr rfl) hb
    simp [hne]
  have hreads : (kept reads).filter (fun b => !(b == 0)) =
      reads.flatten.filter fun b => !(b == 0) := by
    rw [kept, List.filter_flatMap, List.filter_flatten, List.flatMap_def]
    congr 2
    exact funext (stripBy_filter (· == (0 : UInt8)))
  rw [hreads, h, stream, List.filter_append, hnull, List.append_nil, List.filter_flatMap,
    joinLines, List.flatMap_map]
  congr 1
  funext x
  rw [List.filter_append, List.filter_append, hnull, hline, List.nil_append]
  rfl

/-! ## What is delivered -/

theorem decodeLine_encodeUtf8 (f : Frame) : decodeLine (encodeUtf8 f.line) = f.line := by
  rw [decodeLine, stripBy_eq_self, decodeIgnore_encodeUtf8]
  · intro b hb
    have hhead : (encodeUtf8 f.line).head? = some 0x4e := rfl
    rw [hhead] at hb
    obtain rfl := Option.some.inj hb
    decide
  · -- the last byte is a digit
    obtain ⟨digits, d, hd⟩ : ∃ digits d, Nat.toDigits 10 f.checksum = digits ++ [d] :=
      ⟨_, _, (List.dropLast_concat_getLast Nat.toDigits_ne_nil).symm⟩
    have hdigit : d.isDigit = true := by
      apply Frame.isDigit_of_mem (n := f.checksum)
      rw [hd]
      exact List.mem_append_right _ List.mem_cons_self
    have hrange : 48 ≤ d.toNat ∧ d.toNat ≤ 57 := by
      unfold Char.isDigit at hdigit
      rw [Bool.and_eq_true, decide_eq_true_eq, decide_eq_true_eq] at hdigit
      exact hdigit
    have hsmall : d.toNat.toUInt8.toNat = d.toNat := by
      rw [Nat.toUInt8_eq, UInt8.toNat_ofNat', Nat.mod_eq_of_lt (by omega)]
    have hbyte : encodeUtf8 [d] = [d.toNat.toUInt8] := by
      apply encodeUtf8_singleton _ hsmall.symm
      rw [UInt8.lt_iff_toNat_lt, hsmall]
      exact hrange.2.trans_lt (by decide)
    rw [Frame.line, hd, ← List.cons_append, ← List.append_assoc, encodeUtf8_append, hbyte]
    intro b hb
    rw [List.getLast?_concat] at hb
    obtain rfl := Option.some.inj hb
    unfold isByteSpace
    simp only [Bool.or_eq_false_iff, beq_eq_false_iff_ne, Bool.and_eq_false_iff,
      decide_eq_false_iff_not, ne_eq, ← UInt8.toNat_inj, UInt8.le_iff_toNat_le, hsmall]
    have h20 : (0x20 : UInt8).toNat = 32 := rfl
    have h0d : (0x0d : UInt8).toNat = 13 := rfl
    omega

theorem linesOf_kept {frames : List (ℕ × Frame)} {nulls : ℕ} {reads : List (List UInt8)}
    (h : reads.flatten = stream frames nulls) (hclean : 0 ∉ kept reads) :
    linesOf 0x0a (kept reads) = frames.map fun x => encodeUtf8 x.2.line := by
  have hself : (kept reads).filter (fun b => !(b == 0)) = kept reads := by
    rw [List.filter_eq_self]
    intro b hb
    have hne : b ≠ 0 := by
      rintro rfl
      exact hclean hb
    simp [hne]
  rw [← hself, filter_kept h, ← List.append_nil (joinLines _ _), linesOf_joinLines]
  · rw [linesOf_eq_nil (by simp), List.append_nil]
  · intro l hl
    obtain ⟨x, -, rfl⟩ := List.mem_map.mp hl
    exact x.2.not_mem_line (Or.inl rfl)

/-- A null byte that is kept is in a line. -/
theorem exists_line_of_null {frames : List (ℕ × Frame)} {nulls : ℕ} {reads : List (List UInt8)}
    (h : reads.flatten = stream frames nulls) (hnull : 0 ∈ kept reads) :
    ∃ line ∈ linesOf 0x0a (kept reads), (0 : UInt8) ∈ line := by
  have hsplit : joinLines (0x0a : UInt8) (linesOf 0x0a (kept reads)) ++ _ = kept reads :=
    joinLines_linesOf (kept reads)
  have hbreak : (!((0x0a : UInt8) == 0)) = true := by decide
  have hlines : (joinLines 0x0a (linesOf 0x0a (kept reads))).filter (fun b => !(b == (0 : UInt8))) =
      joinLines 0x0a ((linesOf 0x0a (kept reads)).map (List.filter fun b => !(b == 0))) := by
    rw [joinLines, joinLines, List.filter_flatMap, List.flatMap_map]
    congr 1
    funext l
    rw [List.filter_append, List.filter_cons_of_pos (by exact hbreak)]
    rfl
  have htail : (tailOf 0x0a (kept reads)).filter (fun b => !(b == (0 : UInt8))) = [] := by
    have hfilter := filter_kept h
    rw [← hsplit, List.filter_append, hlines] at hfilter
    have htails := congrArg (tailOf 0x0a) hfilter
    rw [tailOf_joinLines_append, ← List.append_nil (joinLines _ (frames.map _)),
      tailOf_joinLines_append] at htails
    · exact htails
    · intro l hl
      obtain ⟨x, -, rfl⟩ := List.mem_map.mp hl
      exact x.2.not_mem_line (Or.inl rfl)
    · simp
    · intro l hl hmem
      obtain ⟨line, hline, rfl⟩ := List.mem_map.mp hl
      exact not_mem_of_mem_linesOf hline (List.mem_of_mem_filter hmem)
    · exact fun hmem => not_mem_tailOf _ (List.mem_of_mem_filter hmem)
  have hnil : tailOf 0x0a (kept reads) = [] := by
    by_contra hne
    obtain ⟨b, hb⟩ := Option.ne_none_iff_exists'.mp (mt List.getLast?_eq_none_iff.mp hne)
    have hzero : b = 0 := by
      have hmem := List.filter_eq_nil_iff.mp htail b (List.mem_of_getLast? hb)
      simpa using hmem
    apply getLast?_kept reads
    rw [← hsplit, List.getLast?_append, hb, hzero]
    rfl
  rw [← hsplit, hnil, List.append_nil, joinLines, List.mem_flatMap] at hnull
  obtain ⟨line, hline, hmem⟩ := hnull
  rw [List.mem_append, List.mem_singleton] at hmem
  exact ⟨line, hline, hmem.resolve_right (by decide)⟩

/-- What the PanelDue sends is delivered if and only if no null byte is left inside of a read,
each right line has its checksum for the characters too, with a script that has words and does not
mention `M112`, and no wrong line has the checksum of its characters. -/
theorem delivered_iff (enableChecksum : Bool) (frames : List (ℕ × Frame)) (nulls : ℕ)
    (reads : List (List UInt8)) (hcut : Cut reads (stream frames nulls)) :
    Delivered (frames.map Prod.snd)
        (reads.foldl (handleIncoming enableChecksum) .init).processed ↔
      (∀ data ∈ reads, 0 ∉ stripBy (· == 0) data) ∧
      ∀ f ∈ frames.map Prod.snd,
        (f.Right → mentionsM112 f.line = false ∧ enableChecksum = true ∧
          f.charSum = f.checksum ∧ ∃ c ∈ f.script, Text.isSpace c = false) ∧
        (¬ f.Right → mentionsM112 f.line = false →
          enableChecksum = true ∧ f.charSum ≠ f.checksum) := by
  have hkept : (∀ data ∈ reads, 0 ∉ stripBy (· == 0) data) ↔ 0 ∉ kept reads := by
    rw [kept, List.mem_flatMap]
    push Not
    rfl
  rw [foldl_handleIncoming enableChecksum hcut.nonempty, hkept]
  by_cases hnull : 0 ∈ kept reads
  · refine iff_of_false ?_ fun h => h.1 hnull
    intro h
    obtain ⟨line, hline, hmem⟩ := exists_line_of_null hcut.flatten hnull
    obtain ⟨c, hc, hzero⟩ := mem_decodeIgnore (a := 0) (by decide)
      ((mem_stripBy (p := isByteSpace) (by decide)).mpr hmem)
    obtain ⟨i, hi, rfl⟩ := List.getElem_of_mem hline
    have hlength := h.length_eq
    have hframes : (frames.map Prod.snd).length = frames.length := List.length_map Prod.snd
    simp only [received, List.length_map] at hlength
    have hget := h.get (i := i) (by omega) (by rw [received]; simpa using hi)
    simp only [received, List.get_eq_getElem, List.getElem_map] at hget
    rw [decodeLine] at hget
    rw [hget.1] at hc
    exact (Frame.line_unbroken _ c hc).2 hzero
  · rw [and_iff_right hnull, Delivered, received]
    dsimp only
    rw [linesOf_kept hcut.flatten hnull, List.map_map, List.forall₂_map_left_iff,
      List.forall₂_map_right_iff, List.forall₂_same]
    rw [List.forall_mem_map]
    apply forall₂_congr
    intro x _
    rw [Function.comp_apply, decodeLine_encodeUtf8]
    dsimp only
    rw [← x.2.processed_iff enableChecksum, and_iff_right rfl]

/-- The way home, after a null byte, in three reads that each have null bytes at an end. -/
def homeReads : List (List UInt8) :=
  [[0, 0x4e, 0x32, 0x20], [0x47, 0x32, 0x38, 0x2a, 0x31, 0x37], [0x0a, 0]]

theorem delivered_iff_home :
    ∃ f : Frame, f.script = "G28".toList ∧ f.Right ∧
      Delivered [f] (homeReads.foldl (handleIncoming true) .init).processed := by
  let f : Frame := ⟨2, "G28".toList, 17, by decide⟩
  have hright : f.Right := by decide
  refine ⟨f, rfl, hright, (delivered_iff true [(1, f)] 1 homeReads ⟨?_, ?_, ?_⟩).mpr ⟨?_, ?_⟩⟩
  · decide
  · decide
  · have hshort : ∀ data ∈ homeReads, data.length ≤ 6 := by decide
    intro data hdata
    have := hshort data hdata
    omega
  · decide
  · intro f' hf'
    obtain rfl := List.mem_singleton.mp hf'
    refine ⟨fun _ => ⟨by decide, rfl, by decide, 'G', by decide, by decide⟩, fun h => ?_⟩
    exact absurd hright h

/-- The claim that every right line gives its script is false: the characters of a display message
outside of ASCII have another checksum than their bytes. -/
theorem not_delivered :
    ¬ ∀ (frames : List (ℕ × Frame)) (nulls : ℕ) (reads : List (List UInt8)),
      Cut reads (stream frames nulls) →
        Delivered (frames.map Prod.snd)
          (reads.foldl (handleIncoming true) .init).processed := by
  intro h
  let f : Frame := ⟨1, "M117 é".toList, 111, by decide⟩
  have hdelivered := h [(0, f)] 0 [stream [(0, f)] 0] ⟨by decide, by decide, by decide⟩
  have hright : f.Right := by decide
  have hlines : linesOf 0x0a (kept [stream [(0, f)] 0]) = [encodeUtf8 f.line] :=
    linesOf_kept (show [stream [(0, f)] 0].flatten = stream [(0, f)] 0 by decide) (by decide)
  rw [foldl_handleIncoming _ (by decide), received, hlines] at hdelivered
  obtain ⟨⟨-, hexecutes, -⟩, -⟩ := List.forall₂_cons.mp hdelivered
  have hscript := hexecutes hright
  dsimp only at hscript
  rw [decodeLine_encodeUtf8, f.processLine_line] at hscript
  revert hscript
  decide

end FlsunT1.Moonraker.PanelDue
