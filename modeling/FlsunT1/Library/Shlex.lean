/-
  Library/Shlex.lean --- `shlex.split` by the rules of POSIX.

  A text is read character by character.  In double quotes a backslash stands for itself, unless
  a double quote or another backslash follows.  So a text whose double quotes are escaped, but
  not its backslashes, is read back if and only if each backslash is followed by another
  character than these two.
-/
import Mathlib.Algebra.GroupWithZero.Nat
import FlsunT1.Library.Text

set_option autoImplicit false

namespace FlsunT1.Library.Shlex

def doubleQuote : Char := Char.ofNat 34

def singleQuote : Char := Char.ofNat 39

def backslash : Char := '\\'

/-! ## Reading -/

/-- `whitespace` -/
def isBlank (c : Char) : Bool := c == ' ' || c == '\t' || c == '\r' || c == '\n'

/-- Where the reader is: in a word, in quotes, or behind a backslash in one of the two. -/
inductive State
  | word
  | quoted (quote : Char)
  | escaped
  | escapedInQuotes
  deriving DecidableEq

/-- The tokens of the rest of a text, with what was read of the first one, and whether there
were quotes in it.  Text that ends in quotes or behind a backslash raises an exception. -/
def read : State → Text → Bool → Text → Option (List Text)
  | .word, token, quoted, [] => some (if token = [] ∧ quoted = false then [] else [token])
  | .quoted _, _, _, [] | .escaped, _, _, [] | .escapedInQuotes, _, _, [] => none
  | .word, token, quoted, c :: cs =>
    if isBlank c then
      if token = [] ∧ quoted = false then read .word [] false cs
      else (read .word [] false cs).map (token :: ·)
    else if c = doubleQuote ∨ c = singleQuote then read (.quoted c) token quoted cs
    else if c = backslash then read .escaped token quoted cs
    else read .word (token ++ [c]) quoted cs
  | .quoted quote, token, _, c :: cs =>
    if c = quote then read .word token true cs
    else if c = backslash ∧ quote = doubleQuote then read .escapedInQuotes token true cs
    else read (.quoted quote) (token ++ [c]) true cs
  | .escaped, token, quoted, c :: cs => read .word (token ++ [c]) quoted cs
  | .escapedInQuotes, token, quoted, c :: cs =>
    if c = doubleQuote ∨ c = backslash then read (.quoted doubleQuote) (token ++ [c]) quoted cs
    else read (.quoted doubleQuote) (token ++ [backslash, c]) quoted cs

/-- `shlex.split` -/
def split (text : Text) : Option (List Text) := read .word [] false text

/-- A text with its double quotes escaped. -/
def escapeQuotes (text : Text) : Text :=
  text.flatMap fun c => if c = doubleQuote then [backslash, c] else [c]

/-- Each backslash is followed by a character that it does not escape. -/
def Quotable : Text → Prop
  | [] => True
  | [c] => c ≠ backslash
  | c :: d :: cs => (c = backslash → d ≠ backslash ∧ d ≠ doubleQuote) ∧ Quotable (d :: cs)

instance : (text : Text) → Decidable (Quotable text)
  | [] => inferInstanceAs (Decidable True)
  | [c] => inferInstanceAs (Decidable (c ≠ backslash))
  | _ :: d :: cs =>
    have := instDecidableQuotable (d :: cs)
    inferInstanceAs (Decidable (_ ∧ _))

theorem quotable_cons_iff {c : Char} (hc : c ≠ backslash) {cs : Text} :
    Quotable (c :: cs) ↔ Quotable cs := by
  cases cs with
  | nil => exact iff_of_true hc trivial
  | cons d cs => exact and_iff_right fun h => absurd h hc

theorem quotable_backslash_iff {d : Char} {cs : Text} :
    Quotable (backslash :: d :: cs) ↔ (d ≠ backslash ∧ d ≠ doubleQuote) ∧ Quotable cs := by
  constructor
  · rintro ⟨hd, hcs⟩
    exact ⟨hd rfl, (quotable_cons_iff (hd rfl).1).mp hcs⟩
  · rintro ⟨hd, hcs⟩
    exact ⟨fun _ => hd, (quotable_cons_iff hd.1).mpr hcs⟩

/-! ## What a step does -/

section Steps

variable {token : Text} {quoted : Bool} {c : Char} (cs : Text)

theorem read_word : read .word token quoted (c :: cs) =
    if isBlank c then
      if token = [] ∧ quoted = false then read .word [] false cs
      else (read .word [] false cs).map (token :: ·)
    else if c = doubleQuote ∨ c = singleQuote then read (.quoted c) token quoted cs
    else if c = backslash then read .escaped token quoted cs
    else read .word (token ++ [c]) quoted cs := rfl

theorem read_quoted (quote : Char) : read (.quoted quote) token quoted (c :: cs) =
    if c = quote then read .word token true cs
    else if c = backslash ∧ quote = doubleQuote then read .escapedInQuotes token true cs
    else read (.quoted quote) (token ++ [c]) true cs := rfl

theorem read_escapedInQuotes : read .escapedInQuotes token quoted (c :: cs) =
    if c = doubleQuote ∨ c = backslash then read (.quoted doubleQuote) (token ++ [c]) quoted cs
    else read (.quoted doubleQuote) (token ++ [backslash, c]) quoted cs := rfl

theorem read_close : read (.quoted doubleQuote) token quoted (doubleQuote :: cs) =
    read .word token true cs := by
  rw [read_quoted, if_pos rfl]

theorem read_inQuotes (hdouble : c ≠ doubleQuote) (hback : c ≠ backslash) :
    read (.quoted doubleQuote) token quoted (c :: cs) =
      read (.quoted doubleQuote) (token ++ [c]) true cs := by
  rw [read_quoted, if_neg hdouble, if_neg fun h => hback h.1]

theorem read_escape (h : c = doubleQuote ∨ c = backslash) :
    read (.quoted doubleQuote) token quoted (backslash :: c :: cs) =
      read (.quoted doubleQuote) (token ++ [c]) true cs := by
  rw [read_quoted, if_neg (by decide), if_pos ⟨rfl, rfl⟩, read_escapedInQuotes, if_pos h]

theorem read_backslash (hdouble : c ≠ doubleQuote) (hback : c ≠ backslash) :
    read (.quoted doubleQuote) token quoted (backslash :: c :: cs) =
      read (.quoted doubleQuote) (token ++ [backslash, c]) true cs := by
  rw [read_quoted, if_neg (by decide), if_pos ⟨rfl, rfl⟩, read_escapedInQuotes,
    if_neg (not_or.mpr ⟨hdouble, hback⟩)]

theorem read_end : read .word token true [] = some [token] := by
  exact congrArg some (if_neg fun h => Bool.false_ne_true h.2.symm)

end Steps

/-! ## What is read -/

/-- The characters of the tokens come from the text; a backslash may come from before it. -/
theorem mem_of_mem_read {state : State} {token cs : Text} {quoted : Bool} {tokens : List Text}
    (h : read state token quoted cs = some tokens) {t : Text} (ht : t ∈ tokens) {c : Char}
    (hc : c ∈ t) : c ∈ token ∨ c ∈ cs ∨ c = backslash := by
  induction cs generalizing state token quoted tokens with
  | nil =>
    cases state with
    | word =>
      obtain rfl := Option.some.inj h
      split at ht
      · cases ht
      · rw [List.mem_singleton.mp ht] at hc
        exact Or.inl hc
    | quoted | escaped | escapedInQuotes => cases h
  | cons d cs ih =>
    have hrest {state : State} {token' : Text} {quoted : Bool} {tokens : List Text}
        (h : read state token' quoted cs = some tokens) (ht : t ∈ tokens)
        (htoken : c ∈ token' → c ∈ token ∨ c = d ∨ c = backslash) :
        c ∈ token ∨ c ∈ d :: cs ∨ c = backslash := by
      rw [List.mem_cons]
      rcases ih h ht with hmem | hmem | hmem
      · rcases htoken hmem with hmem | hmem | hmem
        · exact Or.inl hmem
        · exact Or.inr (Or.inl (Or.inl hmem))
        · exact Or.inr (Or.inr hmem)
      · exact Or.inr (Or.inl (Or.inr hmem))
      · exact Or.inr (Or.inr hmem)
    have hsame : c ∈ token → c ∈ token ∨ c = d ∨ c = backslash := Or.inl
    have hnone : c ∈ ([] : Text) → c ∈ token ∨ c = d ∨ c = backslash := fun h => by cases h
    have hnext : c ∈ token ++ [d] → c ∈ token ∨ c = d ∨ c = backslash := fun h =>
      (List.mem_append.mp h).imp_right fun h => Or.inl (List.mem_singleton.mp h)
    have hback : c ∈ token ++ [backslash, d] → c ∈ token ∨ c = d ∨ c = backslash := fun h =>
      (List.mem_append.mp h).imp_right fun h => by
        rcases List.mem_cons.mp h with h | h
        · exact Or.inr h
        · exact Or.inl (List.mem_singleton.mp h)
    cases state with
    | word =>
      rw [read_word] at h
      split at h
      · split at h
        · exact hrest h ht hnone
        · obtain ⟨tokens', h', rfl⟩ := Option.map_eq_some_iff.mp h
          rcases List.mem_cons.mp ht with rfl | ht
          · exact Or.inl hc
          · exact hrest h' ht hnone
      · split at h
        · exact hrest h ht hsame
        · split at h
          · exact hrest h ht hsame
          · exact hrest h ht hnext
    | quoted quote =>
      rw [read_quoted] at h
      split at h
      · exact hrest h ht hsame
      · split at h
        · exact hrest h ht hsame
        · exact hrest h ht hnext
    | escaped => exact hrest h ht hnext
    | escapedInQuotes =>
      rw [read_escapedInQuotes] at h
      split at h
      · exact hrest h ht hnext
      · exact hrest h ht hback

/-! ## Weights

A double quote of a token costs two characters of the text, as long as there are no single
quotes, whose weight is as great as that of all the double quotes together. -/

/-- What a character of a token weighs. -/
def charWeight (single : ℕ) (c : Char) : ℕ :=
  if c = doubleQuote then 2 else if c = singleQuote then single else if c = backslash then 1 else 0

/-- What a character of the text costs. -/
def charCost (single : ℕ) (c : Char) : ℕ :=
  if c = doubleQuote then 1 else charWeight single c

def weight (single : ℕ) (t : Text) : ℕ := (t.map (charWeight single)).sum

def cost (single : ℕ) (t : Text) : ℕ := (t.map (charCost single)).sum

section Weights

variable {single : ℕ}

@[simp] theorem weight_nil : weight single [] = 0 := rfl

@[simp] theorem weight_cons (c : Char) (t : Text) :
    weight single (c :: t) = charWeight single c + weight single t := List.sum_cons

@[simp] theorem weight_append (t u : Text) :
    weight single (t ++ u) = weight single t + weight single u := by
  rw [weight, List.map_append, List.sum_append]
  rfl

@[simp] theorem cost_nil : cost single [] = 0 := rfl

@[simp] theorem cost_cons (c : Char) (t : Text) :
    cost single (c :: t) = charCost single c + cost single t := List.sum_cons

@[simp] theorem cost_append (t u : Text) :
    cost single (t ++ u) = cost single t + cost single u := by
  rw [cost, List.map_append, List.sum_append]
  rfl

@[simp] theorem charWeight_doubleQuote : charWeight single doubleQuote = 2 := rfl

@[simp] theorem charWeight_backslash : charWeight single backslash = 1 := rfl

@[simp] theorem charCost_doubleQuote : charCost single doubleQuote = 1 := rfl

@[simp] theorem charCost_backslash : charCost single backslash = 1 := rfl

theorem charCost_of_ne {c : Char} (h : c ≠ doubleQuote) : charCost single c = charWeight single c :=
  if_neg h

/-- The weight counts three characters. -/
theorem weight_eq (t : Text) : weight single t =
    2 * t.count doubleQuote + single * t.count singleQuote + t.count backslash := by
  induction t with
  | nil => simp
  | cons c t ih =>
    rw [weight_cons, ih, List.count_cons, List.count_cons, List.count_cons, charWeight]
    by_cases hdouble : c = doubleQuote
    · rw [hdouble]
      have hsingle : (doubleQuote == singleQuote) = false := by decide
      have hback : (doubleQuote == backslash) = false := by decide
      simp only [hsingle, hback, beq_self_eq_true, if_true, Bool.false_eq_true, if_false,
        Nat.add_zero]
      omega
    · by_cases hsingle : c = singleQuote
      · rw [hsingle]
        have hdouble : (singleQuote == doubleQuote) = false := by decide
        have hback : (singleQuote == backslash) = false := by decide
        simp only [hdouble, hback, beq_self_eq_true, if_true, Bool.false_eq_true, if_false,
          if_neg (show singleQuote ≠ doubleQuote by decide), Nat.mul_add, Nat.mul_one, Nat.add_zero]
        omega
      · rw [if_neg hdouble, if_neg hsingle, beq_false_of_ne hdouble, beq_false_of_ne hsingle]
        by_cases hback : c = backslash
        · rw [hback]
          simp only [beq_self_eq_true, if_true, Bool.false_eq_true, if_false, Nat.add_zero]
          omega
        · rw [if_neg hback, beq_false_of_ne hback]
          simp only [Bool.false_eq_true, if_false, Nat.add_zero]
          omega

/-- Escaping costs what the text weighs. -/
theorem cost_escapeQuotes (t : Text) : cost single (escapeQuotes t) = weight single t := by
  induction t with
  | nil => rfl
  | cons c t ih =>
    rw [escapeQuotes, List.flatMap_cons, ← escapeQuotes, cost_append, ih, weight_cons]
    split
    · rename_i h
      rw [h]
      rfl
    · rename_i h
      rw [cost_cons, charCost_of_ne h]
      rfl

/-- What a place costs besides the text: a quote that is open is to be closed yet, and a
backslash was paid for already. -/
def stateCost (cs : Text) : State → ℕ
  | .word => 1
  | .quoted quote => if quote = doubleQuote then 0 else 1 + cs.count doubleQuote
  | .escaped => 2
  | .escapedInQuotes => 1

@[simp] theorem stateCost_word (cs : Text) : stateCost cs .word = 1 := rfl

@[simp] theorem stateCost_doubleQuote (cs : Text) : stateCost cs (.quoted doubleQuote) = 0 := rfl

@[simp] theorem stateCost_escaped (cs : Text) : stateCost cs .escaped = 2 := rfl

@[simp] theorem stateCost_escapedInQuotes (cs : Text) : stateCost cs .escapedInQuotes = 1 := rfl

theorem charWeight_le (single : Nat) (c : Char) : charWeight single c ≤ 1 + charCost single c := by
  by_cases h : c = doubleQuote
  · rw [h]
    exact le_rfl
  · rw [charCost_of_ne h]
    exact Nat.le_add_left _ _

theorem stateCost_quoted_le (cs : Text) (c : Char) :
    stateCost cs (.quoted c) ≤ 1 + cs.count doubleQuote := by
  rw [stateCost]
  split
  · exact Nat.zero_le _
  · exact le_rfl

/-- The tokens do not weigh more than the text costs. -/
theorem weight_read {state : State} {token cs : Text} {quoted : Bool} {tokens : List Text}
    (h : read state token quoted cs = some tokens) (hsingle : cs.count doubleQuote ≤ single) :
    (tokens.map (weight single)).sum + 1 ≤
      weight single token + stateCost cs state + cost single cs := by
  induction cs generalizing state token quoted tokens with
  | nil =>
    cases state with
    | word =>
      obtain rfl := Option.some.inj h
      split
      · rw [List.map_nil, List.sum_nil, stateCost_word]
        omega
      · rw [List.map_singleton, List.sum_singleton, stateCost_word]
        omega
    | quoted | escaped | escapedInQuotes => cases h
  | cons c cs ih =>
    have hcount : cs.count doubleQuote ≤ single :=
      (List.count_le_count_cons).trans hsingle
    have hle := charWeight_le single c
    cases state with
    | word =>
      rw [read_word] at h
      split at h
      · split at h
        · have := ih h hcount
          simp only [weight_nil, stateCost_word, cost_cons] at this ⊢
          omega
        · obtain ⟨tokens', h', rfl⟩ := Option.map_eq_some_iff.mp h
          have := ih h' hcount
          simp only [weight_nil, stateCost_word, cost_cons, List.map_cons, List.sum_cons] at this ⊢
          omega
      · split at h
        · rename_i hquote
          have hrest := ih h hcount
          rcases hquote with rfl | rfl
          · simp only [stateCost_doubleQuote, stateCost_word, cost_cons] at hrest ⊢
            omega
          · have hopen := stateCost_quoted_le cs singleQuote
            have hcost : charCost single singleQuote = single := rfl
            simp only [cost_cons, hcost, stateCost_word]
            omega
        · rename_i hquote
          split at h
          · rename_i hback
            have := ih h hcount
            rw [hback]
            simp only [stateCost_escaped, stateCost_word, cost_cons, charCost_backslash] at this ⊢
            omega
          · have := ih h hcount
            rw [weight_append, weight_cons, weight_nil,
              ← charCost_of_ne (not_or.mp hquote).1] at this
            simp only [stateCost_word, cost_cons] at this ⊢
            omega
    | quoted quote =>
      rw [read_quoted] at h
      have hopen : stateCost cs (.quoted quote) ≤ stateCost (c :: cs) (.quoted quote) := by
        rw [stateCost, stateCost]
        split
        · exact le_rfl
        · exact Nat.add_le_add_left List.count_le_count_cons 1
      split at h
      · rename_i hclose
        have := ih h hcount
        by_cases hquote : quote = doubleQuote
        · rw [hclose, hquote]
          simp only [stateCost_doubleQuote, stateCost_word, cost_cons, charCost_doubleQuote]
            at this ⊢
          omega
        · have hone : 1 ≤ stateCost (c :: cs) (.quoted quote) := by
            rw [stateCost, if_neg hquote]
            exact Nat.le_add_right _ _
          simp only [stateCost_word, cost_cons] at this ⊢
          omega
      · split at h
        · rename_i hback
          have := ih h hcount
          rw [hback.1, hback.2]
          simp only [stateCost_escapedInQuotes, stateCost_doubleQuote, cost_cons,
            charCost_backslash] at this ⊢
          omega
        · rename_i hclose _
          have := ih h hcount
          rw [weight_append, weight_cons, weight_nil] at this
          rw [cost_cons]
          by_cases hc : c = doubleQuote
          · have hquote : quote ≠ doubleQuote := fun heq => hclose (hc.trans heq.symm)
            rw [stateCost, if_neg hquote] at this
            rw [hc] at this ⊢
            rw [stateCost, if_neg hquote, List.count_cons_self]
            simp only [charWeight_doubleQuote, charCost_doubleQuote] at this ⊢
            omega
          · rw [charCost_of_ne hc]
            omega
    | escaped =>
      have := ih h hcount
      simp only [weight_append, weight_cons, weight_nil, stateCost_word, stateCost_escaped,
        cost_cons] at this ⊢
      omega
    | escapedInQuotes =>
      rw [read_escapedInQuotes] at h
      split at h
      · have := ih h hcount
        simp only [weight_append, weight_cons, weight_nil, stateCost_doubleQuote,
          stateCost_escapedInQuotes, cost_cons] at this ⊢
        omega
      · rename_i hquote
        have := ih h hcount
        simp only [weight_append, weight_cons, weight_nil, stateCost_doubleQuote,
          stateCost_escapedInQuotes, charWeight_backslash,
          ← charCost_of_ne (not_or.mp hquote).1, cost_cons] at this ⊢
        omega

end Weights

/-! ## Quoted texts -/

theorem escapeQuotes_cons {c : Char} (hc : c ≠ doubleQuote) (t : Text) :
    escapeQuotes (c :: t) = c :: escapeQuotes t := by
  rw [escapeQuotes, List.flatMap_cons, if_neg hc]
  rfl

theorem escapeQuotes_doubleQuote (t : Text) :
    escapeQuotes (doubleQuote :: t) = backslash :: doubleQuote :: escapeQuotes t := rfl

/-- **A text in double quotes is read back**, if no backslash in it escapes something. -/
theorem read_escapeQuotes {text : Text} (h : Quotable text) (token : Text) (quoted : Bool)
    (cs : Text) : read (.quoted doubleQuote) token quoted (escapeQuotes text ++ doubleQuote :: cs) =
      read .word (token ++ text) true cs := by
  match text with
  | [] =>
    rw [List.append_nil]
    exact read_close cs
  | c :: text =>
    by_cases hback : c = backslash
    · rw [hback] at h ⊢
      cases text with
      | nil => exact absurd rfl h
      | cons d text =>
        obtain ⟨⟨hd, hd'⟩, htext⟩ := quotable_backslash_iff.mp h
        rw [escapeQuotes_cons (by decide), escapeQuotes_cons hd', List.cons_append,
          List.cons_append, read_backslash _ hd' hd, read_escapeQuotes htext, List.append_assoc]
        rfl
    · have htext := (quotable_cons_iff hback).mp h
      by_cases hdouble : c = doubleQuote
      · rw [hdouble, escapeQuotes_doubleQuote, List.cons_append, List.cons_append,
          read_escape _ (Or.inl rfl), read_escapeQuotes htext, List.append_assoc]
        rfl
      · rw [escapeQuotes_cons hdouble, List.cons_append, read_inQuotes _ hdouble hback,
          read_escapeQuotes htext, List.append_assoc]
        rfl
termination_by text.length

/-- Otherwise, what is read weighs less than the text. -/
theorem weight_read_escapeQuotes {single : ℕ} {text : Text} (h : ¬Quotable text) {token : Text}
    {quoted : Bool} {tokens : List Text}
    (hread : read (.quoted doubleQuote) token quoted (escapeQuotes text ++ [doubleQuote]) =
      some tokens) (hsingle : (escapeQuotes text ++ [doubleQuote]).count doubleQuote ≤ single) :
    (tokens.map (weight single)).sum < weight single token + weight single text := by
  match text with
  | [] => exact absurd trivial h
  | c :: text =>
    by_cases hback : c = backslash
    · rw [hback] at h hread hsingle ⊢
      cases text with
      | nil =>
        rw [show escapeQuotes [backslash] ++ [doubleQuote] = [backslash, doubleQuote] from rfl,
          read_escape _ (Or.inl rfl)] at hread
        cases hread
      | cons d text =>
        rw [escapeQuotes_cons (by decide)] at hread hsingle
        by_cases hd : d = backslash
        · rw [hd, escapeQuotes_cons (by decide), List.cons_append, List.cons_append] at hread
          rw [hd, escapeQuotes_cons (by decide), List.cons_append, List.cons_append,
            List.count_cons_of_ne (by decide), List.count_cons_of_ne (by decide)] at hsingle
          rw [read_escape _ (Or.inr rfl)] at hread
          have hweight := weight_read hread hsingle
          rw [hd]
          simp only [cost_append, cost_escapeQuotes, weight_append, weight_cons, weight_nil,
            charWeight_backslash, cost_cons, cost_nil, charCost_doubleQuote,
            stateCost_doubleQuote] at hweight ⊢
          omega
        · by_cases hd' : d = doubleQuote
          · rw [hd', escapeQuotes_doubleQuote, List.cons_append, List.cons_append,
              List.cons_append] at hread
            rw [hd', escapeQuotes_doubleQuote, List.cons_append, List.cons_append,
              List.cons_append] at hsingle
            rw [read_escape _ (Or.inr rfl), read_close] at hread
            have hweight := weight_read hread (((List.sublist_cons_self _ _).trans
              ((List.sublist_cons_self _ _).trans
                (List.sublist_cons_self _ _))).count_le _ |>.trans hsingle)
            rw [hd']
            simp only [cost_append, cost_escapeQuotes, weight_append, weight_cons, weight_nil,
              charWeight_backslash, charWeight_doubleQuote, cost_cons, cost_nil,
              charCost_doubleQuote, stateCost_word] at hweight ⊢
            omega
          · have htext : ¬Quotable text := fun htext =>
              h (quotable_backslash_iff.mpr ⟨⟨hd, hd'⟩, htext⟩)
            rw [escapeQuotes_cons hd', List.cons_append, List.cons_append,
              read_backslash _ hd' hd] at hread
            rw [escapeQuotes_cons hd', List.cons_append, List.cons_append] at hsingle
            have hweight := weight_read_escapeQuotes htext hread
              (((List.sublist_cons_self _ _).trans (List.sublist_cons_self _ _)).count_le _ |>.trans
                hsingle)
            simp only [weight_append, weight_cons, weight_nil] at hweight ⊢
            omega
    · have htext : ¬Quotable text := fun htext => h ((quotable_cons_iff hback).mpr htext)
      by_cases hdouble : c = doubleQuote
      · rw [hdouble, escapeQuotes_doubleQuote, List.cons_append, List.cons_append] at hsingle hread
        rw [read_escape _ (Or.inl rfl)] at hread
        have hweight := weight_read_escapeQuotes htext hread
          (((List.sublist_cons_self _ _).trans (List.sublist_cons_self _ _)).count_le _ |>.trans
            hsingle)
        rw [hdouble]
        simp only [weight_append, weight_cons, weight_nil] at hweight ⊢
        omega
      · rw [escapeQuotes_cons hdouble, List.cons_append] at hsingle hread
        rw [read_inQuotes _ hdouble hback] at hread
        have hweight := weight_read_escapeQuotes htext hread
          ((List.sublist_cons_self _ _).count_le _ |>.trans hsingle)
        simp only [weight_append, weight_cons, weight_nil] at hweight ⊢
        omega
termination_by text.length

end FlsunT1.Library.Shlex
