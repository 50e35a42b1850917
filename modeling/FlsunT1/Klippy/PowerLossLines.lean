/-
  Klippy/PowerLossLines.lean --- what the lines of `F102` do.

  A number that is written without an exponent comes back as itself.  In one with an
  exponent the `e` is a letter of its own: the parameter before it has the mantissa, and
  the exponent is the parameter `E` of the line.
-/
import FlsunT1.Klippy.PowerLoss

set_option autoImplicit false

namespace FlsunT1.Klippy

open Library

variable {K : Type} [Field K] [LinearOrder K] [IsStrictOrderedRing K]
variable {cfg : PrinterConfig K} {num : Numerals K} {r : Recovery K}

/-! ## Texts of numbers -/

/-- How Python writes a finite float: plainly, or with an exponent when it is below 0.0001
or from 10 ^ 16 on. -/
inductive FloatText (num : Numerals K) (text : String) (v : K) : Prop
  | plain (htext : PlainText text) (hread : num.float text = some v)
  | exponent (mantissa exponent : String) (m : K) (x : ℤ)
      (htext : text = mantissa ++ "e" ++ exponent)
      (hmantissa : PlainText mantissa) (hexponent : PlainText exponent)
      (hm : num.float mantissa = some m) (hx : num.float exponent = some (x : K))
      (hlow : 1 ≤ |m|) (hhigh : |m| < 10) (hrange : x ≤ -5 ∨ 16 ≤ x) (hv : v = m * 10 ^ x)

/-- The text of an integer is read as the integer. -/
def ReadsInt (num : Numerals K) (n : ℤ) : Prop := num.float (toString n) = some (n : K)

omit [LinearOrder K] [IsStrictOrderedRing K] in
theorem not_plainText_exponent {mantissa exponent : String} :
    ¬PlainText (mantissa ++ "e" ++ exponent) := fun h => by
  have hmem : 'e' ∈ (mantissa ++ "e" ++ exponent).toList := by
    rw [String.toList_append, String.toList_append]
    exact List.mem_append_left _ (List.mem_append_right _ List.mem_cons_self)
  exact absurd (h.2 'e' hmem) (by decide)

theorem mantissa_ne {m : K} {x : ℤ} (hlow : 1 ≤ |m|) (hrange : x ≤ -5 ∨ 16 ≤ x) :
    m ≠ m * 10 ^ x := by
  have hm : m ≠ 0 := by
    rintro rfl
    rw [abs_zero] at hlow
    exact absurd hlow (not_le.mpr one_pos)
  intro h
  have hone : (10 : K) ^ x = 1 := mul_left_cancel₀ hm (h.symm.trans (mul_one m).symm)
  have hx : x = 0 := zpow_right_injective₀ (by norm_num) (by norm_num) (hone.trans (zpow_zero 10).symm)
  omega

theorem exponent_ne {m : K} {x : ℤ} (hlow : 1 ≤ |m|) (hhigh : |m| < 10)
    (hrange : x ≤ -5 ∨ 16 ≤ x) : (x : K) ≠ m * 10 ^ x := by
  intro h
  have habs : |(x : K)| = |m| * 10 ^ x := by
    rw [h, abs_mul, abs_of_pos (zpow_pos (by norm_num : (0 : K) < 10) x)]
  have hcast : |(x : K)| = ((|x| : ℤ) : K) := by rw [Int.cast_abs]
  obtain hx | hx := hrange
  · have hpow : (10 : K) ^ x ≤ 10 ^ (-5 : ℤ) := zpow_le_zpow_right₀ (by norm_num) hx
    have hfive : (5 : K) ≤ ((|x| : ℤ) : K) := by
      exact_mod_cast (le_abs'.mpr (Or.inl hx) : (5 : ℤ) ≤ |x|)
    have hsmall : |m| * 10 ^ x ≤ 10 * 10 ^ (-5 : ℤ) :=
      mul_le_mul hhigh.le hpow (zpow_nonneg (by norm_num) x) (by norm_num)
    have hnum : (10 : K) * 10 ^ (-5 : ℤ) < 5 := by norm_num
    exact absurd (hfive.trans (hcast.symm.trans habs).le) (not_le.mpr (hsmall.trans_lt hnum))
  · obtain ⟨k, rfl⟩ := Int.eq_ofNat_of_zero_le (by omega : 0 ≤ x)
    have hlt : ((k : ℕ) : K) < 10 ^ k := by exact_mod_cast Nat.lt_pow_self (by norm_num)
    have hbig : (10 : K) ^ k ≤ |m| * 10 ^ k := le_mul_of_one_le_left (by positivity) hlow
    rw [Int.cast_natCast, Nat.abs_cast, zpow_natCast] at habs
    exact absurd habs (ne_of_lt (hlt.trans_le hbig))

/-- What the parameter before a number is read as: the number, or its mantissa. -/
inductive StartValue (text : String) (v a : K) : Prop
  | plain (htext : PlainText text) (ha : a = v)
  | exponent (x : ℤ) (htext : ¬PlainText text) (hlow : 1 ≤ |a|) (hhigh : |a| < 10)
      (hrange : x ≤ -5 ∨ 16 ≤ x) (hv : v = a * 10 ^ x)

namespace StartValue

variable {text : String} {v a : K}

theorem eq_iff (h : StartValue text v a) : a = v ↔ PlainText text := by
  cases h with
  | plain htext ha => exact iff_of_true ha htext
  | exponent x htext hlow hhigh hrange hv =>
    exact iff_of_false (fun heq => mantissa_ne hlow hrange (heq.trans hv)) htext

theorem nonneg (h : StartValue text v a) (hv : 0 ≤ v) : 0 ≤ a := by
  cases h with
  | plain htext ha => exact ha ▸ hv
  | exponent x htext hlow hhigh hrange heq =>
    rw [heq] at hv
    exact nonneg_of_mul_nonneg_left hv (zpow_pos (by norm_num) x)

theorem plain_of_zero (h : StartValue text 0 a) : PlainText text := by
  cases h with
  | plain htext ha => exact htext
  | exponent x htext hlow hhigh hrange hv =>
    have hne : a * 10 ^ x ≠ 0 := by
      refine mul_ne_zero ?_ (zpow_ne_zero x (by norm_num))
      rintro rfl
      rw [abs_zero] at hlow
      exact absurd hlow (not_le.mpr one_pos)
    exact absurd hv.symm hne

end StartValue

/-! ## Lines with one number -/

theorem opening_M104 : Opening "M104 S" 'M' ['1', '0', '4'] 'S' :=
  ⟨rfl, by decide, by decide, by decide⟩

theorem opening_M109 : Opening "M109 S" 'M' ['1', '0', '9'] 'S' :=
  ⟨rfl, by decide, by decide, by decide⟩

theorem opening_M140 : Opening "M140 S" 'M' ['1', '4', '0'] 'S' :=
  ⟨rfl, by decide, by decide, by decide⟩

theorem opening_M190 : Opening "M190 S" 'M' ['1', '9', '0'] 'S' :=
  ⟨rfl, by decide, by decide, by decide⟩

theorem opening_M106 : Opening "M106 S" 'M' ['1', '0', '6'] 'S' :=
  ⟨rfl, by decide, by decide, by decide⟩

theorem opening_G92 : Opening "G92 E" 'G' ['9', '2'] 'E' := ⟨rfl, by decide, by decide, by decide⟩

theorem opening_G1 : Opening "G1 Z" 'G' ['1'] 'Z' := ⟨rfl, by decide, by decide, by decide⟩

/-- The `S` of a line is read as `a`. -/
def ReadsS (num : Numerals K) (line : String) (a : K) : Prop :=
  ∃ text, (processLine line).2.param "S" = some text ∧ num.float text = some a

omit [IsStrictOrderedRing K] in
/-- The `S` at the start of a number is read as the start of the number. -/
theorem FloatText.readsS {text : String} {v : K} (h : FloatText num text v) :
    ∃ a, StartValue text v a ∧ ∀ {start : String} {c : Char} {code : List Char},
      Opening start c code 'S' →
        (processLine (start ++ text)).1 = String.ofList (c :: code) ∧
        ReadsS num (start ++ text) a := by
  cases h with
  | plain htext hread =>
    refine ⟨v, .plain htext rfl, fun hstart => ?_⟩
    rw [ReadsS, hstart.processLine_plain htext]
    exact ⟨rfl, text, rfl, hread⟩
  | exponent mantissa exponent m x htext hmantissa hexponent hm hx hlow hhigh hrange hv =>
    subst htext
    refine ⟨m, .exponent x not_plainText_exponent hlow hhigh hrange hv, fun hstart => ?_⟩
    rw [ReadsS, hstart.processLine_exponent hmantissa hexponent]
    exact ⟨rfl, mantissa, rfl, hm⟩

omit [Field K] [IsStrictOrderedRing K] in
theorem getFloat_free {gcmd : GCodeCommand} {name text : String} {a : K}
    (hparam : gcmd.param name = some text) (hread : num.float text = some a) :
    gcmd.getFloat num name .free = .ok (some a) := by
  rw [GCodeCommand.getFloat, GCodeCommand.get, hparam]
  dsimp only
  rw [hread]
  rfl

omit [IsStrictOrderedRing K] in
theorem getFloat_minZero {gcmd : GCodeCommand} {name text : String} {a : K}
    (hparam : gcmd.param name = some text) (hread : num.float text = some a) (ha : 0 ≤ a) :
    gcmd.getFloat num name .minZero = .ok (some a) := by
  have hbound : decide (a < 0) = false := decide_eq_false (not_lt.mpr ha)
  rw [GCodeCommand.getFloat, GCodeCommand.get, hparam]
  dsimp only
  rw [hread]
  simp only [GCodeCommand.checkBounds, GCodeCommand.outside, Bounds.minZero, hbound]
  rfl

omit [IsStrictOrderedRing K] in
theorem runLine_nozzle {p : Printer K} {line : String} {a : K}
    (hname : (processLine line).1 = "M104" ∨ (processLine line).1 = "M109")
    (hread : ReadsS num line a) :
    p.runLine cfg num r line = .ok { p with nozzleTarget := a } := by
  obtain ⟨text, hparam, hfloat⟩ := hread
  have htemp := getFloat_free hparam hfloat
  obtain hname | hname := hname
  · rw [Printer.runLine, hname]
    show (GCodeCommand.getFloat num _ "S" .free).bind _ = _
    rw [htemp]
    rfl
  · rw [Printer.runLine, hname]
    show (GCodeCommand.getFloat num _ "S" .free).bind _ = _
    rw [htemp]
    rfl

omit [IsStrictOrderedRing K] in
theorem runLine_bed {p : Printer K} {line : String} {a : K}
    (hname : (processLine line).1 = "M140" ∨ (processLine line).1 = "M190")
    (hread : ReadsS num line a) :
    p.runLine cfg num r line = .ok { p with bedTarget := a } := by
  obtain ⟨text, hparam, hfloat⟩ := hread
  have htemp := getFloat_free hparam hfloat
  obtain hname | hname := hname
  · rw [Printer.runLine, hname]
    show (GCodeCommand.getFloat num _ "S" .free).bind _ = _
    rw [htemp]
    rfl
  · rw [Printer.runLine, hname]
    show (GCodeCommand.getFloat num _ "S" .free).bind _ = _
    rw [htemp]
    rfl

omit [IsStrictOrderedRing K] in
theorem runLine_M106 {p : Printer K} {line : String} {a : K}
    (hname : (processLine line).1 = "M106") (hread : ReadsS num line a) (ha : 0 ≤ a) :
    p.runLine cfg num r line = .ok { p with fan := p.fan.setSpeed (a / 255) } := by
  obtain ⟨text, hparam, hfloat⟩ := hread
  rw [Printer.runLine, hname]
  show (GCodeCommand.getFloat num _ "S" .minZero).bind _ = _
  rw [getFloat_minZero hparam hfloat ha]
  rfl

/-- After every start of a line, the text is read as `a`. -/
def ReadsAs (num : Numerals K) (text : String) (a : K) : Prop :=
  ∀ {start : String} {c : Char} {code : List Char}, Opening start c code 'S' →
    (processLine (start ++ text)).1 = String.ofList (c :: code) ∧ ReadsS num (start ++ text) a

omit [LinearOrder K] [IsStrictOrderedRing K] in
theorem ReadsInt.readsAs {n : ℤ} (h : ReadsInt num n) : ReadsAs num (toString n) (n : K) := by
  intro start c code hstart
  rw [ReadsS, hstart.processLine_plain (.of_int n)]
  exact ⟨rfl, toString n, rfl, h⟩

section Lines

omit [IsStrictOrderedRing K]

variable {p : Printer K} {text : String} {a : K}

theorem runLine_M104 (h : ReadsAs num text a) :
    p.runLine cfg num r ("M104 S" ++ text) = .ok { p with nozzleTarget := a } :=
  runLine_nozzle (Or.inl (h opening_M104).1) (h opening_M104).2

theorem runLine_M109 (h : ReadsAs num text a) :
    p.runLine cfg num r ("M109 S" ++ text) = .ok { p with nozzleTarget := a } :=
  runLine_nozzle (Or.inr (h opening_M109).1) (h opening_M109).2

theorem runLine_M140 (h : ReadsAs num text a) :
    p.runLine cfg num r ("M140 S" ++ text) = .ok { p with bedTarget := a } :=
  runLine_bed (Or.inl (h opening_M140).1) (h opening_M140).2

theorem runLine_M190 (h : ReadsAs num text a) :
    p.runLine cfg num r ("M190 S" ++ text) = .ok { p with bedTarget := a } :=
  runLine_bed (Or.inr (h opening_M190).1) (h opening_M190).2

theorem runLines_nil : p.runLines cfg num r [] = .ok p := rfl

theorem runLines_cons {p' : Printer K} {line : String} (h : p.runLine cfg num r line = .ok p')
    (lines : List String) : p.runLines cfg num r (line :: lines) = p'.runLines cfg num r lines := by
  rw [Printer.runLines, List.foldlM_cons, h]
  rfl

theorem runLines_append {p' : Printer K} {lines : List String}
    (h : p.runLines cfg num r lines = .ok p') (lines' : List String) :
    p.runLines cfg num r (lines ++ lines') = p'.runLines cfg num r lines' := by
  rw [Printer.runLines, List.foldlM_append, ← Printer.runLines, h]
  rfl

theorem runLines_ite {p' : Printer K} {line : String} (b : Prop) [Decidable b]
    (h : b → p.runLine cfg num r line = .ok p') (h' : ¬b → p' = p) :
    p.runLines cfg num r (if b then [line] else []) = .ok p' := by
  split
  · rename_i hb
    rw [runLines_cons (h hb), runLines_nil]
  · rename_i hb
    rw [runLines_nil, h' hb]

/-- Whatever the temperatures are, both heaters end with their own targets. -/
theorem runLines_heatLines {str : K → String} {nozzleTemp bedTemp an ab : K}
    (h140 : ReadsInt num 140) (h50 : ReadsInt num 50)
    (hn : ReadsAs num (str nozzleTemp) an) (hb : ReadsAs num (str bedTemp) ab) :
    p.runLines cfg num r (heatLines str nozzleTemp bedTemp r) =
      .ok { p with nozzleTarget := an, bedTarget := ab } := by
  have hM104 (q : Printer K) :
      q.runLine cfg num r "M104 S140" = .ok { q with nozzleTarget := (140 : ℤ) } := by
    have hline : "M104 S140" = "M104 S" ++ toString (140 : ℤ) := by decide
    rw [hline]
    exact runLine_M104 h140.readsAs
  have hM109 (q : Printer K) :
      q.runLine cfg num r "M109 S140" = .ok { q with nozzleTarget := (140 : ℤ) } := by
    have hline : "M109 S140" = "M109 S" ++ toString (140 : ℤ) := by decide
    rw [hline]
    exact runLine_M109 h140.readsAs
  have hM190 (q : Printer K) :
      q.runLine cfg num r "M190 S50" = .ok { q with bedTarget := (50 : ℤ) } := by
    have hline : "M190 S50" = "M190 S" ++ toString (50 : ℤ) := by decide
    rw [hline]
    exact runLine_M190 h50.readsAs
  rw [heatLines]
  by_cases hnozzle : r.nozzleAtStart < 140
  · by_cases hbed : r.bedAtStart < 50
    · by_cases hafter : r.nozzleAfterBed < 140
      · simp only [hnozzle, hbed, hafter, decide_true, Bool.and_self, if_true, List.cons_append,
          List.nil_append]
        rw [runLines_cons (hM104 _), runLines_cons (hM190 _), runLines_cons (hM109 _),
          runLines_cons (runLine_M140 hb), runLines_cons (runLine_M104 hn), runLines_nil]
      · simp only [hnozzle, hbed, hafter, decide_true, decide_false, Bool.and_false, if_true,
          Bool.false_eq_true, if_false, List.cons_append, List.nil_append]
        rw [runLines_cons (hM104 _), runLines_cons (hM190 _), runLines_cons (runLine_M140 hb),
          runLines_cons (runLine_M104 hn), runLines_nil]
    · by_cases hafter : r.nozzleAfterBed < 140
      · simp only [hnozzle, hbed, hafter, decide_true, decide_false, Bool.and_self, if_true,
          Bool.false_eq_true, if_false, List.cons_append, List.nil_append]
        rw [runLines_cons (runLine_M140 hb), runLines_cons (hM109 _),
          runLines_cons (runLine_M104 hn), runLines_nil]
      · simp only [hnozzle, hbed, hafter, decide_true, decide_false, Bool.and_false, if_true,
          Bool.false_eq_true, if_false, List.cons_append, List.nil_append]
        rw [runLines_cons (runLine_M140 hb), runLines_cons (runLine_M104 hn), runLines_nil]
  · by_cases hbed : r.bedAtStart < 50
    · simp only [hnozzle, hbed, decide_true, decide_false, Bool.false_and, if_true,
        Bool.false_eq_true, if_false, List.cons_append, List.nil_append]
      rw [runLines_cons (runLine_M104 hn), runLines_cons (hM190 _),
        runLines_cons (runLine_M140 hb), runLines_nil]
    · simp only [hnozzle, hbed, decide_false, Bool.false_and, Bool.false_eq_true, if_false,
        List.cons_append, List.nil_append]
      rw [runLines_cons (runLine_M104 hn), runLines_cons (runLine_M140 hb), runLines_nil]

end Lines

/-! ## G92 -/

/-- What `E` before a number is read as: the number, or its exponent. -/
inductive EndValue (text : String) (v a : K) : Prop
  | plain (htext : PlainText text) (ha : a = v)
  | exponent (htext : ¬PlainText text) (ha : a ≠ v)

omit [Field K] [LinearOrder K] [IsStrictOrderedRing K] in
theorem EndValue.eq_iff {text : String} {v a : K} (h : EndValue text v a) :
    a = v ↔ PlainText text := by
  cases h with
  | plain htext ha => exact iff_of_true ha htext
  | exponent htext ha => exact iff_of_false ha htext

omit [IsStrictOrderedRing K] in
/-- `G92` with an `E` alone. -/
theorem cmdG92_e {gcmd : GCodeCommand} {text : String} {a : K} (hx : gcmd.param "X" = none)
    (hy : gcmd.param "Y" = none) (hz : gcmd.param "Z" = none) (he : gcmd.param "E" = some text)
    (hread : num.float text = some a) (g : GCodeMove K) :
    g.cmdG92 num gcmd = .ok (g.setBase ![none, none, none, some a]) := by
  have hmissing {name : String} (hparam : gcmd.param name = none) :
      gcmd.getFloat num name .free = .ok none := by
    rw [GCodeCommand.getFloat, GCodeCommand.get, hparam]
  have haxes : GCodeMove.axesParam num gcmd "" = .ok ![none, none, none, some a] := by
    rw [GCodeMove.axesParam]
    simp only [String.append_empty]
    show (gcmd.getFloat num "X" .free).bind _ = _
    rw [hmissing hx]
    show (gcmd.getFloat num "Y" .free).bind _ = _
    rw [hmissing hy]
    show (gcmd.getFloat num "Z" .free).bind _ = _
    rw [hmissing hz]
    show (gcmd.getFloat num "E" .free).bind _ = _
    rw [getFloat_free he hread]
    rfl
  rw [GCodeMove.cmdG92, haxes]
  rfl

omit [IsStrictOrderedRing K] in
theorem runCommand_G92 {p : Printer K} {line : String} {g : GCodeMove K}
    (hname : (processLine line).1 = "G92")
    (h : p.gcodeMove.cmdG92 num (processLine line).2 = .ok g) :
    p.runLine cfg num r line = .ok { p with gcodeMove := g } := by
  rw [Printer.runLine, hname]
  show (p.gcodeMove.cmdG92 num _).bind _ = _
  rw [h]
  rfl

theorem runLine_G92 (cfg : PrinterConfig K) (r : Recovery K) {text : String} {v : K}
    (h : FloatText num text v) :
    ∃ a, EndValue text v a ∧ ∀ p : Printer K,
      p.runLine cfg num r ("G92 E" ++ text) =
        .ok { p with gcodeMove := p.gcodeMove.setBase ![none, none, none, some a] } := by
  cases h with
  | plain htext hread =>
    refine ⟨v, .plain htext rfl, fun p => ?_⟩
    have hline := opening_G92.processLine_plain htext
    refine runCommand_G92 (by rw [hline]) ?_
    rw [hline]
    exact cmdG92_e rfl rfl rfl rfl hread _
  | exponent mantissa exponent m x htext hmantissa hexponent hm hx hlow hhigh hrange hv =>
    subst htext
    refine ⟨x, .exponent not_plainText_exponent
      fun heq => exponent_ne hlow hhigh hrange (heq.trans hv), fun p => ?_⟩
    have hline := opening_G92.processLine_exponent hmantissa hexponent
    refine runCommand_G92 (by rw [hline]) ?_
    rw [hline]
    exact cmdG92_e rfl rfl rfl rfl hx _

/-! ## G1 -/

/-- A move of `F102`. -/
def Printer.moved (cfg : PrinterConfig K) (params : GCodeMove.MoveParams K) (p : Printer K) : Printer K :=
  let g := (p.gcodeMove.moveTo cfg p.workMode p.status params).1
  { p with gcodeMove := g, zMoves := p.zMoves ++ [g.gcodePosition 2] }

omit [IsStrictOrderedRing K] in
theorem runLine_G1 {p : Printer K} {line : String} {params : GCodeMove.MoveParams K}
    (hname : (processLine line).1 = "G1")
    (hread : GCodeMove.readMove num (processLine line).2 = .ok params) :
    p.runLine cfg num r line = .ok (p.moved cfg params) := by
  rw [Printer.runLine, hname]
  show (p.gcodeMove.cmdG1 cfg num p.workMode p.status _).bind _ = _
  rw [GCodeMove.cmdG1, hread]
  rfl

/-- What `Z` before a number is read as, and the `E` of the same line. -/
inductive ZValue (text : String) (v a : K) : Option K → Prop
  | plain (htext : PlainText text) (ha : a = v) : ZValue text v a none
  | exponent (x : ℤ) (htext : ¬PlainText text) (hlow : 1 ≤ |a|) (hhigh : |a| < 10)
      (hrange : x ≤ -5 ∨ 16 ≤ x) (hv : v = a * 10 ^ x) : ZValue text v a (some (x : K))

omit [Field K] [LinearOrder K] [IsStrictOrderedRing K] in
theorem floatParam_eq {num : Numerals K} {gcmd : GCodeCommand} {name text : String} {v : K}
    (hparam : gcmd.param name = some text) (hread : num.float text = some v) :
    GCodeMove.floatParam num gcmd name = .ok (some v) := by
  simp only [GCodeMove.floatParam, hparam, hread]

omit [IsStrictOrderedRing K] in
/-- The move up. -/
theorem runLine_G1_up (cfg : PrinterConfig K) (r : Recovery K) {text : String} {v : K}
    (h : FloatText num text v) :
    ∃ a e, ZValue text v a e ∧ ∀ p : Printer K,
      p.runLine cfg num r ("G1 Z" ++ text) =
        .ok (p.moved cfg ⟨![none, none, some a, e], none⟩) := by
  cases h with
  | plain htext hread =>
    refine ⟨v, none, .plain htext rfl, fun p => ?_⟩
    have hline := opening_G1.processLine_plain htext
    refine runLine_G1 (by rw [hline]) ?_
    have hz : GCodeMove.floatParam num (processLine ("G1 Z" ++ text)).2 (axisName 2) =
        .ok (some v) := by
      rw [hline]
      exact floatParam_eq rfl hread
    rw [GCodeMove.readMove, hz, hline]
    rfl
  | exponent mantissa exponent m x htext hmantissa hexponent hm hx hlow hhigh hrange hv =>
    subst htext
    refine ⟨m, some x, .exponent x not_plainText_exponent hlow hhigh hrange hv, fun p => ?_⟩
    have hline := opening_G1.processLine_exponent hmantissa hexponent
    refine runLine_G1 (by rw [hline]) ?_
    have hz : GCodeMove.floatParam num
        (processLine ("G1 Z" ++ (mantissa ++ "e" ++ exponent))).2 (axisName 2) =
        .ok (some m) := by
      rw [hline]
      exact floatParam_eq rfl hm
    have he : GCodeMove.floatParam num
        (processLine ("G1 Z" ++ (mantissa ++ "e" ++ exponent))).2 (axisName 3) =
        .ok (some (x : K)) := by
      rw [hline]
      exact floatParam_eq rfl hx
    rw [GCodeMove.readMove, hz, he, hline]
    rfl

/-- The line of the last move. -/
def positionLine (x y z : ℤ) : String :=
  "G1 X" ++ toString x ++ " Y" ++ toString y ++ " Z" ++ toString z ++ " F3000"

/-- The letters and texts of the last move. -/
def positionParts (x y z : ℤ) : List Part :=
  [('G', ['1', ' ']), ('X', (toString x).toList ++ [' ']), ('Y', (toString y).toList ++ [' ']),
    ('Z', (toString z).toList ++ [' ']), ('F', ['3', '0', '0', '0'])]

theorem positionLine_toList (x y z : ℤ) :
    (positionLine x y z).toList = render (positionParts x y z) := by
  rw [positionLine]
  simp only [String.toList_append]
  simp [render, positionParts]

theorem positionParts_wellCut (x y z : ℤ) : WellCut (positionParts x y z) := by
  have hint (n : ℤ) : (toString n).toList ++ [' '] ≠ [] ∧
      ∀ d ∈ (toString n).toList ++ [' '], isTextChar d = true := by
    refine ⟨List.append_ne_nil_of_right_ne_nil _ (List.cons_ne_nil _ _), fun d hd => ?_⟩
    rw [List.mem_append, List.mem_singleton] at hd
    obtain hd | rfl := hd
    · exact (PlainText.of_int n).isText d hd
    · decide
  rintro part (_ | ⟨_, _ | ⟨_, _ | ⟨_, _ | ⟨_, _ | ⟨_, hpart⟩⟩⟩⟩⟩)
  · decide
  · exact ⟨rfl, rfl, hint x⟩
  · exact ⟨rfl, rfl, hint y⟩
  · exact ⟨rfl, rfl, hint z⟩
  · decide
  · cases hpart

/-- What is made of the line of the last move. -/
theorem processLine_position (x y z : ℤ) :
    processLine (positionLine x y z) =
      ("G1", ⟨positionLine x y z,
        [("F", "3000"), ("Z", toString z), ("Y", toString y), ("X", toString x), ("G", "1")]⟩) := by
  have hspaced (n : ℤ) : String.ofList (strip ((toString n).toList ++ [' '])) = toString n := by
    rw [strip_append_space (PlainText.of_int n).noSpace, String.ofList_toList]
  have hcut := positionParts_wellCut x y z
  have hchar (d : Char) (hd : d ∈ (positionLine x y z).toList) :
      d.toUpper = d ∧ d ≠ ';' := by
    rw [positionLine_toList, render, List.mem_flatMap] at hd
    obtain ⟨part, hpart, hd⟩ := hd
    obtain ⟨hupper, hsame, -, htext⟩ := hcut part hpart
    cases hd with
    | head =>
      refine ⟨hsame, ?_⟩
      rintro heq
      rw [heq] at hupper
      cases hupper
    | tail _ hd =>
      obtain ⟨hsame, -, -, hne⟩ := isTextChar_iff.mp (htext d hd)
      exact ⟨hsame, hne⟩
  have hupper : (positionLine x y z).toList.map Char.toUpper = render (positionParts x y z) := by
    rw [← positionLine_toList]
    exact (List.map_congr_left fun d hd => (hchar d hd).1).trans (List.map_id _)
  rw [processLine_eq ?_ ?_ (fun hd => (hchar _ hd).2 rfl) hupper hcut]
  · simp only [positionParts, List.map_cons, List.map_nil, lineParams, List.reverse_cons,
      List.reverse_nil, List.nil_append, List.cons_append, hspaced]
    rfl
  · rw [positionLine_toList]
    rintro d ⟨⟩
    rfl
  · rw [positionLine, String.toList_append, List.getLast?_append_of_ne_nil _ (by decide)]
    rintro d ⟨⟩
    rfl

/-- The last move. -/
theorem runLine_G1_position {p : Printer K} {x y z : ℤ}
    (hx : ReadsInt num x) (hy : ReadsInt num y) (hz : ReadsInt num z)
    (hfeed : ReadsInt num 3000) :
    p.runLine cfg num r (positionLine x y z) =
      .ok (p.moved cfg ⟨![some (x : K), some (y : K), some (z : K), none], some 3000⟩) := by
  have hline := processLine_position x y z
  have hparam {i : String} {n : ℤ} (hlookup : (processLine (positionLine x y z)).2.param i =
      some (toString n)) (hn : ReadsInt num n) :
      GCodeMove.floatParam num (processLine (positionLine x y z)).2 i = .ok (some (n : K)) := by
    rw [GCodeMove.floatParam, hlookup]
    dsimp only
    rw [hn]
  have hF : GCodeMove.floatParam num (processLine (positionLine x y z)).2 "F" =
      .ok (some (3000 : K)) := by
    have htext : "3000" = toString (3000 : ℤ) := by decide
    rw [hparam (by rw [hline, ← htext]; rfl) hfeed, Int.cast_ofNat]
  refine runLine_G1 (by rw [hline]) ?_
  rw [GCodeMove.readMove, hparam (by rw [hline]; rfl) hx, hparam (by rw [hline]; rfl) hy,
    hparam (by rw [hline]; rfl) hz, hF, hline]
  show (if (3000 : K) ≤ 0 then _ else _) = _
  rw [if_neg (by norm_num)]

/-! ## The other lines -/

omit [IsStrictOrderedRing K] in
theorem runLine_other {p : Printer K} {line name : String}
    (hname : (processLine line).1 = name)
    (hother : name ∈ ["SET_EXCLUDE_ENABLE", "EXCLUDE_OBJECT", "SAVE_VARIABLE",
      "SET_FILAMENT_USED", "M400", "CLEAR_PAUSE"]) :
    p.runLine cfg num r line = .ok p := by
  rw [Printer.runLine, hname]
  simp only [List.mem_cons, List.not_mem_nil, or_false] at hother
  obtain rfl | rfl | rfl | rfl | rfl | rfl := hother <;> rfl

end FlsunT1.Klippy
