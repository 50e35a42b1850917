/-
  Library/Utf8.lean --- UTF-8 text cut at an ASCII separator.

  The bytes of a character outside ASCII are all above it, so the lines of the
  encoded text are the encoded lines of the text.
-/
import Mathlib.Data.List.Basic
import FlsunT1.Library.Lines

set_option autoImplicit false

namespace FlsunT1.Library

/-- The UTF-8 encoding of a text. -/
def encodeUtf8 (t : List Char) : List UInt8 := t.flatMap String.utf8EncodeChar

/-- The text with the given encoding, if there is one. -/
def decodeUtf8 (b : List UInt8) : Option String := String.fromUTF8? b.toByteArray

@[simp]
theorem encodeUtf8_nil : encodeUtf8 [] = [] := rfl

@[simp]
theorem encodeUtf8_cons (c : Char) (t : List Char) :
    encodeUtf8 (c :: t) = String.utf8EncodeChar c ++ encodeUtf8 t := rfl

@[simp]
theorem encodeUtf8_append (s t : List Char) :
    encodeUtf8 (s ++ t) = encodeUtf8 s ++ encodeUtf8 t := List.flatMap_append

/-- What was encoded is decoded. -/
theorem decodeUtf8_encodeUtf8 (t : List Char) :
    decodeUtf8 (encodeUtf8 t) = some (String.ofList t) := by
  have hvalid : (encodeUtf8 t).toByteArray.IsValidUTF8 := ⟨t, rfl⟩
  rw [decodeUtf8, String.fromUTF8?, dif_pos hvalid]
  rfl

/-- What is decoded has the bytes as its encoding. -/
theorem eq_encodeUtf8_of_decodeUtf8 {b : List UInt8} {s : String} (h : decodeUtf8 b = some s) :
    b = encodeUtf8 s.toList := by
  unfold decodeUtf8 String.fromUTF8? at h
  split at h
  · obtain rfl := Option.some.inj h
    have hbytes := String.utf8Encode_toList (b := String.fromUTF8 b.toByteArray ‹_›)
    simpa [List.utf8Encode, String.fromUTF8, encodeUtf8] using
      (congrArg (fun a : ByteArray => a.data.toList) hbytes).symm
  · cases h

/-- An ASCII byte is in the encoding of no other character than its own. -/
theorem mem_utf8EncodeChar {c : Char} {b : UInt8} (hb : b < 0x80)
    (h : b ∈ String.utf8EncodeChar c) : c.toNat = b.toNat := by
  have hlow : b.toNat < 0x80 := hb
  have hval : c.val.toNat = c.toNat := rfl
  -- every other byte has its highest bit set
  have hhigh : ∀ n m : Nat, 0x80 ≤ m → n + m < 0x100 → b ≠ UInt8.ofNat (n + m) := by
    intro n m hm hlt heq
    rw [heq, UInt8.toNat_ofNat', Nat.mod_eq_of_lt (by omega)] at hlow
    omega
  unfold String.utf8EncodeChar at h
  simp only [hval] at h
  split at h
  · rename_i hascii
    rw [List.mem_singleton] at h
    rw [h, UInt8.toNat_ofNat', Nat.mod_eq_of_lt (by omega)]
  · exfalso
    split at h
    · simp only [List.mem_cons, List.not_mem_nil, or_false] at h
      rcases h with h | h
      · exact hhigh _ 0xc0 (by omega) (by omega) h
      · exact hhigh _ 0x80 (by omega) (by omega) h
    · split at h
      · simp only [List.mem_cons, List.not_mem_nil, or_false] at h
        rcases h with h | h | h
        · exact hhigh _ 0xe0 (by omega) (by omega) h
        · exact hhigh _ 0x80 (by omega) (by omega) h
        · exact hhigh _ 0x80 (by omega) (by omega) h
      · simp only [List.mem_cons, List.not_mem_nil, or_false] at h
        rcases h with h | h | h | h
        · exact hhigh _ 0xf0 (by omega) (by omega) h
        · exact hhigh _ 0x80 (by omega) (by omega) h
        · exact hhigh _ 0x80 (by omega) (by omega) h
        · exact hhigh _ 0x80 (by omega) (by omega) h

section Separator

variable {sep : Char} {b : UInt8}

/-- The separator is in a text when its byte is in the encoding. -/
theorem mem_of_mem_encodeUtf8 (hb : b < 0x80) (hsep : sep.toNat = b.toNat) {t : List Char}
    (h : b ∈ encodeUtf8 t) : sep ∈ t := by
  obtain ⟨c, hc, hmem⟩ := List.mem_flatMap.mp h
  have hnat := mem_utf8EncodeChar hb hmem
  have hchar : c = sep := by
    apply Char.ext
    apply UInt32.toNat_inj.mp
    exact hnat.trans hsep.symm
  rwa [← hchar]

theorem encodeUtf8_singleton (hb : b < 0x80) (hsep : sep.toNat = b.toNat) :
    encodeUtf8 [sep] = [b] := by
  have hlow : b.toNat < 0x80 := hb
  have hval : sep.val.toNat = sep.toNat := rfl
  rw [encodeUtf8_cons, encodeUtf8_nil, List.append_nil, String.utf8EncodeChar]
  simp only [hval, hsep]
  rw [if_pos (by omega), UInt8.ofNat_toNat]

theorem encodeUtf8_joinLines (hb : b < 0x80) (hsep : sep.toNat = b.toNat)
    (ls : List (List Char)) :
    encodeUtf8 (joinLines sep ls) = joinLines b (ls.map encodeUtf8) := by
  induction ls with
  | nil => rfl
  | cons l ls ih =>
    have hcons : l ++ sep :: joinLines sep ls = l ++ ([sep] ++ joinLines sep ls) := rfl
    rw [joinLines_cons, hcons, encodeUtf8_append, encodeUtf8_append,
      encodeUtf8_singleton hb hsep, ih, List.map_cons, joinLines_cons]
    rfl

/-- The lines of an encoded text are its lines, encoded. -/
theorem linesOf_encodeUtf8 (hb : b < 0x80) (hsep : sep.toNat = b.toNat) (t : List Char) :
    linesOf b (encodeUtf8 t) = (linesOf sep t).map encodeUtf8 := by
  have hlines : ∀ l ∈ (linesOf sep t).map encodeUtf8, b ∉ l := by
    intro l hl hmem
    obtain ⟨s, hs, rfl⟩ := List.mem_map.mp hl
    exact not_mem_of_mem_linesOf hs (mem_of_mem_encodeUtf8 hb hsep hmem)
  have htail : b ∉ encodeUtf8 (tailOf sep t) := fun hmem =>
    not_mem_tailOf t (mem_of_mem_encodeUtf8 hb hsep hmem)
  have ht : joinLines sep (linesOf sep t) ++ tailOf sep t = t := joinLines_linesOf t
  conv_lhs => rw [← ht]
  rw [encodeUtf8_append, encodeUtf8_joinLines hb hsep, linesOf_joinLines hlines,
    linesOf_eq_nil htail, List.append_nil]

end Separator

/-- An ASCII text is at the front of a text exactly when its encoding is at the front of the
encoding. -/
theorem encodeUtf8_prefix_iff {a t : List Char} (ha : ∀ c ∈ a, c.toNat < 0x80) :
    encodeUtf8 a <+: encodeUtf8 t ↔ a <+: t := by
  induction a generalizing t with
  | nil => simp
  | cons c a ih =>
    obtain ⟨hc, hrest⟩ := List.forall_mem_cons.mp ha
    have hsmall : c.toNat.toUInt8.toNat = c.toNat := by
      rw [Nat.toUInt8_eq, UInt8.toNat_ofNat', Nat.mod_eq_of_lt (by omega)]
    have hlow : c.toNat.toUInt8 < 0x80 := by
      rw [UInt8.lt_iff_toNat_lt, hsmall]
      exact hc
    have hbyte : String.utf8EncodeChar c = [c.toNat.toUInt8] := by
      have h : encodeUtf8 [c] = [c.toNat.toUInt8] := encodeUtf8_singleton hlow hsmall.symm
      rwa [encodeUtf8_cons, encodeUtf8_nil, List.append_nil] at h
    cases t with
    | nil => simp [hbyte]
    | cons d t =>
      rw [encodeUtf8_cons, encodeUtf8_cons, hbyte, List.cons_prefix_cons]
      constructor
      · intro h
        obtain ⟨b, bs, hd⟩ := List.exists_cons_of_ne_nil (String.utf8EncodeChar_ne_nil (c := d))
        have hhead := h
        rw [hd, List.singleton_append, List.cons_append, List.cons_prefix_cons] at hhead
        have hmem : c.toNat.toUInt8 ∈ String.utf8EncodeChar d := by
          rw [hd, hhead.1]
          exact List.mem_cons_self
        have hcd : d = c := Char.toNat_inj.mp ((mem_utf8EncodeChar hlow hmem).trans hsmall)
        subst hcd
        rw [hbyte, List.singleton_append, List.singleton_append, List.cons_prefix_cons] at h
        exact ⟨rfl, (ih hrest).mp h.2⟩
      · rintro ⟨rfl, h⟩
        rw [hbyte, List.singleton_append, List.singleton_append, List.cons_prefix_cons]
        exact ⟨rfl, (ih hrest).mpr h⟩

/-! ## Where a character starts -/

/-- A byte that comes after the first of a character. -/
def continues (b : UInt8) : Bool := 0x80 ≤ b && b < 0xc0

theorem continues_ofNat {n : ℕ} (hn : n < 0x40) : continues (UInt8.ofNat (n + 0x80)) = true := by
  have hsmall : (UInt8.ofNat (n + 0x80)).toNat = n + 0x80 := by
    rw [UInt8.toNat_ofNat', Nat.mod_eq_of_lt (by omega)]
  unfold continues
  rw [Bool.and_eq_true, decide_eq_true_iff, decide_eq_true_iff, UInt8.le_iff_toNat_le,
    UInt8.lt_iff_toNat_lt, hsmall]
  exact ⟨Nat.le_add_left _ _, Nat.add_lt_add_right hn 0x80⟩

theorem not_continues_ofNat {n : ℕ} (hn : n < 0x80 ∨ 0xc0 ≤ n) (hn' : n < 0x100) :
    continues (UInt8.ofNat n) = false := by
  have hsmall : (UInt8.ofNat n).toNat = n := by rw [UInt8.toNat_ofNat', Nat.mod_eq_of_lt hn']
  unfold continues
  rw [Bool.and_eq_false_iff, decide_eq_false_iff_not, decide_eq_false_iff_not,
    UInt8.le_iff_toNat_le, UInt8.lt_iff_toNat_lt, hsmall]
  exact hn.imp (Nat.not_le.mpr ·) (Nat.not_lt.mpr ·)

/-- A character is one byte that starts it, and bytes that continue it. -/
theorem utf8EncodeChar_eq_cons (c : Char) : ∃ b bs, String.utf8EncodeChar c = b :: bs ∧
    continues b = false ∧ ∀ b' ∈ bs, continues b' = true := by
  have hmax : c.val.toNat < 0x110000 := by
    rcases c.valid with h | ⟨-, h⟩
    · exact Nat.lt_trans h (by decide)
    · exact h
  unfold String.utf8EncodeChar
  dsimp only
  split
  · exact ⟨_, [], rfl, not_continues_ofNat (by omega) (by omega), List.forall_mem_nil _⟩
  · have hmod (n : ℕ) : n % 0x40 < 0x40 := Nat.mod_lt _ (by decide)
    split
    · refine ⟨_, [_], rfl, not_continues_ofNat (by omega) (by omega), ?_⟩
      exact List.forall_mem_singleton.mpr (continues_ofNat (hmod _))
    · split
      · refine ⟨_, [_, _], rfl, not_continues_ofNat (by omega) (by omega), ?_⟩
        refine List.forall_mem_cons.mpr ⟨continues_ofNat (hmod _), ?_⟩
        exact List.forall_mem_singleton.mpr (continues_ofNat (hmod _))
      · refine ⟨_, [_, _, _], rfl, not_continues_ofNat (by omega) (by omega), ?_⟩
        refine List.forall_mem_cons.mpr ⟨continues_ofNat (hmod _), ?_⟩
        refine List.forall_mem_cons.mpr ⟨continues_ofNat (hmod _), ?_⟩
        exact List.forall_mem_singleton.mpr (continues_ofNat (hmod _))

/-- An encoded text is decoded from every byte that does not continue a character. -/
theorem decodeUtf8_drop_isSome_iff (t : List Char) (n : ℕ) :
    (decodeUtf8 ((encodeUtf8 t).drop n)).isSome = true ↔
      ∀ b ∈ (encodeUtf8 t)[n]?, continues b = false := by
  constructor
  · intro h b hb
    obtain ⟨s, hs⟩ := Option.isSome_iff_exists.mp h
    have hbytes := eq_encodeUtf8_of_decodeUtf8 hs
    have hhead : ((encodeUtf8 t).drop n)[0]? = some b := by
      rw [List.getElem?_drop, Nat.add_zero]
      exact hb
    rw [hbytes] at hhead
    cases hchars : s.toList with
    | nil =>
      rw [hchars] at hhead
      cases hhead
    | cons c u =>
      obtain ⟨b', bs, hc, hstart, -⟩ := utf8EncodeChar_eq_cons c
      rw [hchars, encodeUtf8_cons, hc] at hhead
      obtain rfl := Option.some.inj hhead
      exact hstart
  · intro h
    induction t generalizing n with
    | nil =>
      rw [encodeUtf8_nil, List.drop_nil, ← encodeUtf8_nil, decodeUtf8_encodeUtf8]
      rfl
    | cons c t ih =>
      cases n with
      | zero =>
        rw [List.drop_zero, decodeUtf8_encodeUtf8]
        rfl
      | succ n =>
        obtain ⟨b, bs, hc, -, hcontinue⟩ := utf8EncodeChar_eq_cons c
        rw [encodeUtf8_cons, hc, List.cons_append, List.drop_succ_cons]
        rw [encodeUtf8_cons, hc, List.cons_append, List.getElem?_cons_succ] at h
        rcases Nat.lt_or_ge n bs.length with hlt | hge
        · rw [List.getElem?_append_left hlt, List.getElem?_eq_getElem hlt] at h
          have hfalse := h _ rfl
          rw [hcontinue _ (List.getElem_mem hlt)] at hfalse
          cases hfalse
        · rw [List.getElem?_append_right hge] at h
          rw [List.drop_append, List.drop_eq_nil_of_le hge, List.nil_append]
          exact ih _ h

/-! ## Decoding that leaves out errors -/

/-- The loop of `decodeIgnore`, over at most the given number of bytes. -/
def decodeIgnoreFrom : ℕ → List UInt8 → List Char
  | 0, _ => []
  | _, [] => []
  | n + 1, b :: bs =>
    match (b :: bs).toByteArray.utf8DecodeChar? 0 with
    | some c => c :: decodeIgnoreFrom n ((b :: bs).drop (String.utf8EncodeChar c).length)
    | none => decodeIgnoreFrom n bs

/-- `b.decode('utf-8', 'ignore')`: a byte that begins no character is left out. -/
def decodeIgnore (b : List UInt8) : List Char := decodeIgnoreFrom b.length b

theorem utf8DecodeChar?_utf8EncodeChar (c : Char) (bs : List UInt8) :
    (String.utf8EncodeChar c ++ bs).toByteArray.utf8DecodeChar? 0 = some c := by
  rw [List.toByteArray_append]
  exact ByteArray.utf8DecodeChar?_utf8EncodeChar_append

theorem eq_append_of_utf8DecodeChar? {b : List UInt8} {c : Char}
    (h : b.toByteArray.utf8DecodeChar? 0 = some c) :
    b = String.utf8EncodeChar c ++ b.drop (String.utf8EncodeChar c).length := by
  obtain ⟨rest, hrest⟩ := ByteArray.exists_of_utf8DecodeChar?_eq_some h
  have hb : b = String.utf8EncodeChar c ++ rest.data.toList := by
    simpa using congrArg (fun a : ByteArray => a.data.toList) hrest
  rw [hb, List.drop_left]

/-- What was encoded is decoded. -/
theorem decodeIgnore_encodeUtf8 (t : List Char) : decodeIgnore (encodeUtf8 t) = t := by
  suffices ∀ n, (encodeUtf8 t).length ≤ n → decodeIgnoreFrom n (encodeUtf8 t) = t from
    this _ (Nat.le_refl _)
  induction t with
  | nil =>
    intro n _
    cases n <;> rfl
  | cons c t ih =>
    intro n hn
    obtain ⟨b, bs, hc, -⟩ := utf8EncodeChar_eq_cons c
    have hdecode := utf8DecodeChar?_utf8EncodeChar c (encodeUtf8 t)
    have hdrop : (String.utf8EncodeChar c ++ encodeUtf8 t).drop _ = encodeUtf8 t := List.drop_left
    rw [encodeUtf8_cons, List.length_append] at hn
    rw [encodeUtf8_cons]
    rw [hc, List.cons_append] at hdecode hdrop ⊢
    rw [hc, List.length_cons] at hn
    cases n with
    | zero => omega
    | succ n =>
      unfold decodeIgnoreFrom
      rw [hdecode]
      dsimp only
      rw [hc, hdrop, ih n (by omega)]

/-- An ASCII character is left in. -/
theorem mem_decodeIgnore {a : UInt8} (ha : a < 0x80) {b : List UInt8} (h : a ∈ b) :
    ∃ c ∈ decodeIgnore b, c.toNat = a.toNat := by
  suffices ∀ n (b : List UInt8), b.length ≤ n → a ∈ b →
      ∃ c ∈ decodeIgnoreFrom n b, c.toNat = a.toNat from this _ b (Nat.le_refl _) h
  intro n
  induction n with
  | zero =>
    intro b hb h
    rw [List.length_eq_zero_iff.mp (Nat.le_zero.mp hb)] at h
    cases h
  | succ n ih =>
    intro b hb h
    cases b with
    | nil => cases h
    | cons x bs =>
      unfold decodeIgnoreFrom
      cases hdecode : (x :: bs).toByteArray.utf8DecodeChar? 0 with
      | some c =>
        dsimp only
        obtain ⟨y, ys, hc, -⟩ := utf8EncodeChar_eq_cons c
        rw [eq_append_of_utf8DecodeChar? hdecode] at h
        rcases List.mem_append.mp h with hmem | hmem
        · exact ⟨c, List.mem_cons_self, mem_utf8EncodeChar ha hmem⟩
        · obtain ⟨d, hd, heq⟩ := ih _ (by
            rw [List.length_drop, hc, List.length_cons]
            rw [List.length_cons] at hb ⊢
            omega) hmem
          exact ⟨d, List.mem_cons_of_mem _ hd, heq⟩
      | none =>
        dsimp only
        rcases List.mem_cons.mp h with rfl | hmem
        · -- an ASCII byte is a character of its own
          have hchar : String.utf8EncodeChar (Char.ofUInt8 a) = [a] := by
            have hone : encodeUtf8 [Char.ofUInt8 a] = [a] :=
              encodeUtf8_singleton ha (UInt8.toNat_toUInt32 a)
            rwa [encodeUtf8_cons, encodeUtf8_nil, List.append_nil] at hone
          have hsome := utf8DecodeChar?_utf8EncodeChar (Char.ofUInt8 a) bs
          rw [hchar, List.singleton_append, hdecode] at hsome
          cases hsome
        · exact ih bs (Nat.le_of_succ_le_succ hb) hmem

end FlsunT1.Library
